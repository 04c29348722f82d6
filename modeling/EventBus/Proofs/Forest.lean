/-!
# Forests and their orders

A finite forest can be walked depth first, each node before or after what is below it, or level by
level. A queue that takes a node from the front and appends its children walks level by level
(`queueOrder_eq`), and all walks meet the same nodes (`preorders_perm_levelOrder`).
-/

namespace EventBus

inductive RoseTree (δ : Type) where
  | node (label : δ) (children : List (RoseTree δ))

namespace RoseTree

variable {δ β γ : Type}

def label : RoseTree δ → δ
  | node d _ => d

def children : RoseTree δ → List (RoseTree δ)
  | node _ ts => ts

mutual
def size : RoseTree δ → Nat
  | node _ ts => sizes ts + 1
def sizes : List (RoseTree δ) → Nat
  | [] => 0
  | t :: ts => t.size + sizes ts
end

mutual
def preorder : RoseTree δ → List δ
  | node d ts => d :: preorders ts
def preorders : List (RoseTree δ) → List δ
  | [] => []
  | t :: ts => t.preorder ++ preorders ts
end

mutual
def postorder : RoseTree δ → List δ
  | node d ts => postorders ts ++ [d]
def postorders : List (RoseTree δ) → List δ
  | [] => []
  | t :: ts => t.postorder ++ postorders ts
end

mutual
/-- What is met on the way around a tree that meets `enter d` before what is below a node labelled
`d` and `leave d` after it. -/
def tour (enter leave : δ → List β) : RoseTree δ → List β
  | node d ts => enter d ++ tours enter leave ts ++ leave d
def tours (enter leave : δ → List β) : List (RoseTree δ) → List β
  | [] => []
  | t :: ts => t.tour enter leave ++ tours enter leave ts
end

theorem sizes_append : ∀ ts us : List (RoseTree δ), sizes (ts ++ us) = sizes ts + sizes us
  | [], us => by simp [sizes]
  | t :: ts, us => by rw [List.cons_append, sizes, sizes, sizes_append ts us, Nat.add_assoc]

theorem sizes_children_add : ∀ ts : List (RoseTree δ), sizes (ts.flatMap children) + ts.length = sizes ts
  | [] => rfl
  | node d us :: ts => by
    have ih := sizes_children_add ts
    rw [List.flatMap_cons, sizes_append, List.length_cons, sizes, size, children]
    omega

/-- The labels level by level: those of the roots, then those of their children, and so on. -/
def levelOrder : List (RoseTree δ) → List δ
  | [] => []
  | t :: ts => (t :: ts).map label ++ levelOrder ((t :: ts).flatMap children)
termination_by ts => sizes ts
decreasing_by
  have := sizes_children_add (t :: ts)
  rw [List.length_cons] at this
  omega

/-- The labels as a queue meets them which takes the first node and appends its children. -/
def queueOrder : List (RoseTree δ) → List δ
  | [] => []
  | node d us :: ts => d :: queueOrder (ts ++ us)
termination_by ts => sizes ts
decreasing_by
  rw [sizes_append, sizes, size]
  omega

theorem levelOrder_eq (ts : List (RoseTree δ)) :
    levelOrder ts = ts.map label ++ levelOrder (ts.flatMap children) := by
  cases ts with
  | nil => simp [levelOrder]
  | cons t ts => rw [levelOrder]

theorem queueOrder_append : ∀ ts us : List (RoseTree δ),
    queueOrder (ts ++ us) = ts.map label ++ queueOrder (us ++ ts.flatMap children)
  | [], us => by simp
  | node d vs :: ts, us => by
    rw [List.cons_append, queueOrder, List.append_assoc, queueOrder_append ts (us ++ vs)]
    simp [label, children, List.append_assoc]

theorem queueOrder_eq (ts : List (RoseTree δ)) : queueOrder ts = levelOrder ts := by
  induction h : sizes ts using Nat.strongRecOn generalizing ts with
  | ind n ih =>
    cases ts with
    | nil => simp [queueOrder, levelOrder]
    | cons t ts =>
      have hlt := sizes_children_add (t :: ts)
      rw [List.length_cons] at hlt
      have hq := queueOrder_append (t :: ts) []
      rw [List.append_nil, List.nil_append] at hq
      rw [hq, levelOrder_eq, ih _ (by omega) _ rfl]

theorem preorders_append : ∀ ts us : List (RoseTree δ),
    preorders (ts ++ us) = preorders ts ++ preorders us
  | [], us => by simp [preorders]
  | t :: ts, us => by
    rw [List.cons_append, preorders, preorders, preorders_append ts us, List.append_assoc]

theorem preorders_perm : ∀ ts : List (RoseTree δ),
    (preorders ts).Perm (ts.map label ++ preorders (ts.flatMap children))
  | [] => .refl _
  | node d us :: ts => by
    have ih := preorders_perm ts
    rw [preorders, preorder, List.map_cons, List.flatMap_cons, children, label, preorders_append]
    simp only [List.cons_append]
    refine .cons d ((ih.append_left _).trans ?_)
    rw [← List.append_assoc, ← List.append_assoc]
    exact .append_right _ List.perm_append_comm

/-- Depth first and level by level meet the same nodes equally often. -/
theorem preorders_perm_levelOrder (ts : List (RoseTree δ)) : (preorders ts).Perm (levelOrder ts) := by
  induction h : sizes ts using Nat.strongRecOn generalizing ts with
  | ind n ih =>
    cases ts with
    | nil => simp [preorders, levelOrder]
    | cons t ts =>
      have hlt := sizes_children_add (t :: ts)
      rw [List.length_cons] at hlt
      rw [levelOrder_eq]
      exact (preorders_perm _).trans (.append_left _ (ih _ (by omega) _ rfl))

/-! ## Tours -/

section
variable {enter leave : δ → List β} {p : β → Option γ} {f : δ → Option γ}

mutual
theorem filterMap_tour_enter (he : ∀ d, (enter d).filterMap p = (f d).toList)
    (hl : ∀ d, (leave d).filterMap p = []) :
    ∀ t : RoseTree δ, (t.tour enter leave).filterMap p = t.preorder.filterMap f
  | node d ts => by
    rw [tour, preorder, List.filterMap_append, List.filterMap_append, he, hl,
      filterMap_tours_enter he hl ts, List.append_nil]
    cases hd : f d <;> simp [hd]
theorem filterMap_tours_enter (he : ∀ d, (enter d).filterMap p = (f d).toList)
    (hl : ∀ d, (leave d).filterMap p = []) :
    ∀ ts : List (RoseTree δ), (tours enter leave ts).filterMap p = (preorders ts).filterMap f
  | [] => rfl
  | t :: ts => by
    rw [tours, preorders, List.filterMap_append, List.filterMap_append, filterMap_tour_enter he hl t,
      filterMap_tours_enter he hl ts]
end

mutual
theorem filterMap_tour_leave (he : ∀ d, (enter d).filterMap p = [])
    (hl : ∀ d, (leave d).filterMap p = (f d).toList) :
    ∀ t : RoseTree δ, (t.tour enter leave).filterMap p = t.postorder.filterMap f
  | node d ts => by
    rw [tour, postorder, List.filterMap_append, List.filterMap_append, List.filterMap_append, he,
      hl, filterMap_tours_leave he hl ts, List.nil_append]
    cases hd : f d <;> simp [hd]
theorem filterMap_tours_leave (he : ∀ d, (enter d).filterMap p = [])
    (hl : ∀ d, (leave d).filterMap p = (f d).toList) :
    ∀ ts : List (RoseTree δ), (tours enter leave ts).filterMap p = (postorders ts).filterMap f
  | [] => rfl
  | t :: ts => by
    rw [tours, postorders, List.filterMap_append, List.filterMap_append, filterMap_tour_leave he hl t,
      filterMap_tours_leave he hl ts]
end

theorem filterMap_visits (h : ∀ d, (enter d ++ leave d).filterMap p = (f d).toList) :
    ∀ ds : List δ, (ds.flatMap fun d => enter d ++ leave d).filterMap p = ds.filterMap f
  | [] => rfl
  | d :: ds => by
    rw [List.flatMap_cons, List.filterMap_append, h, filterMap_visits h ds]
    cases hd : f d <;> simp [hd]

end

end RoseTree
end EventBus
