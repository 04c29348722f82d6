import EventBus.Hierarchy
import Mathlib.Data.List.Basic
import Mathlib.Data.List.Induction
import Mathlib.Data.Nat.Find
import Mathlib.Logic.Function.Iterate

/-!
# Flattenings by distance

A flattening lists what steps to direct supertypes lead to, nearest first. Types at the same distance
stand in the order in which the types listed before them declare them, for the search takes from its
queue what `c` and the listed types put there, in their order.
-/

namespace EventBus
namespace TypeGraph

variable {g : TypeGraph} {c : EventType}

/-! ## Distances -/

/-- `n` steps lead up from `c` to a type, each to a direct supertype and none from the root. -/
inductive Climbs (g : TypeGraph) (c : EventType) : Nat → EventType → Prop
  | here : Climbs g c 0 c
  | step {n : Nat} {t u : EventType} : Climbs g c n t → t ≠ .root → u ∈ g.supertypes t →
      Climbs g c (n + 1) u

/-- The fewest steps that lead up from `c` to `t` are `n`. -/
structure Distance (g : TypeGraph) (c t : EventType) (n : Nat) : Prop where
  climbs : g.Climbs c n t
  least : ∀ m, g.Climbs c m t → n ≤ m

theorem Climbs.exists_distance {t : EventType} {n : Nat} (h : g.Climbs c n t) :
    ∃ m, g.Distance c t m := by
  classical
  have hex : ∃ m, g.Climbs c m t := ⟨n, h⟩
  exact ⟨Nat.find hex, Nat.find_spec hex, fun _ hm => Nat.find_min' hex hm⟩

theorem Distance.of_self {n : Nat} (h : g.Distance c c n) : n = 0 :=
  Nat.le_zero.mp (h.least 0 .here)

theorem Climbs.zero_eq {t : EventType} (h : g.Climbs c 0 t) : t = c := by
  cases h
  rfl

/-- The last step to a type comes from one that is nearer by one. -/
theorem Distance.declared {t : EventType} {n : Nat} (h : g.Distance c t (n + 1)) :
    ∃ d, g.Distance c d n ∧ d ≠ .root ∧ t ∈ g.supertypes d := by
  obtain ⟨hclimbs, hleast⟩ := h
  cases hclimbs with
  | @step _ d _ hd hr ht =>
    refine ⟨d, ⟨hd, fun m hm => ?_⟩, hr, ht⟩
    exact Nat.le_of_succ_le_succ (hleast (m + 1) (.step hm hr ht))

/-! ## Where a type is declared -/

/-- Where the types of a list declare `t` first: the place in the list of the first that does, and the
place of `t` in its declaration. -/
def declaredAt (g : TypeGraph) (listed : List EventType) (t : EventType) : Nat × Nat :=
  let i := listed.findIdx fun d => decide (t ∈ g.supertypes d)
  (i, (listed[i]?.elim [] g.supertypes).idxOf t)

theorem declaredAt_cons_self (listed : List EventType) {d t : EventType} (h : t ∈ g.supertypes d) :
    g.declaredAt (d :: listed) t = (0, (g.supertypes d).idxOf t) := by
  simp [declaredAt, List.findIdx_cons, h]

theorem declaredAt_cons_ne (listed : List EventType) {d t : EventType} (h : t ∉ g.supertypes d) :
    g.declaredAt (d :: listed) t =
      ((g.declaredAt listed t).1 + 1, (g.declaredAt listed t).2) := by
  simp [declaredAt, List.findIdx_cons, h]

/-- Of two types the one declared first comes first in the declarations taken together. -/
theorem declaredAt_lt {listed : List EventType} {t u : EventType}
    (ht : t ∈ listed.flatMap g.supertypes)
    (h : (listed.flatMap g.supertypes).idxOf t < (listed.flatMap g.supertypes).idxOf u) :
    Prod.Lex (· < ·) (· < ·) (g.declaredAt listed t) (g.declaredAt listed u) := by
  induction listed with
  | nil => cases ht
  | cons d listed ih =>
    rw [List.flatMap_cons, List.idxOf_append, List.idxOf_append] at h
    by_cases htd : t ∈ g.supertypes d
    · rw [declaredAt_cons_self listed htd]
      rw [if_pos htd] at h
      by_cases hud : u ∈ g.supertypes d
      · rw [declaredAt_cons_self listed hud]
        rw [if_pos hud] at h
        exact .right _ h
      · rw [declaredAt_cons_ne listed hud]
        exact .left _ _ (Nat.succ_pos _)
    · rw [if_neg htd] at h
      have hud : u ∉ g.supertypes d := fun hud => by
        rw [if_pos hud] at h
        have := List.idxOf_lt_length_iff.mpr hud
        omega
      rw [if_neg hud] at h
      rw [List.flatMap_cons, List.mem_append] at ht
      rw [declaredAt_cons_ne listed htd, declaredAt_cons_ne listed hud]
      rcases Prod.lex_def.mp (ih (ht.resolve_left htd) (by omega)) with hi | ⟨hi, hj⟩
      · exact .left _ _ (Nat.succ_lt_succ hi)
      · rw [hi]
        exact .right _ hj

/-- The first type of the list that declares `t` is found, and none before it does. -/
theorem exists_declaredAt {listed : List EventType} {t d : EventType} (hd : d ∈ listed)
    (ht : t ∈ g.supertypes d) :
    ∃ e, listed[(g.declaredAt listed t).1]? = some e ∧ t ∈ g.supertypes e ∧
      (g.declaredAt listed t).1 ≤ listed.idxOf d := by
  have hlt : listed.findIdx (fun d => decide (t ∈ g.supertypes d)) < listed.length :=
    List.findIdx_lt_length.mpr ⟨d, hd, decide_eq_true ht⟩
  refine ⟨_, List.getElem?_eq_getElem hlt, ?_, Nat.le_of_not_lt fun hbefore => ?_⟩
  · exact of_decide_eq_true (List.findIdx_getElem (w := hlt))
  · have hno := List.not_of_lt_findIdx hbefore
    rw [List.getElem_idxOf, decide_eq_false_iff_not] at hno
    exact hno ht

theorem declaredAt_lt_of_mem {front : List EventType} {t d : EventType} (hd : d ∈ front)
    (ht : t ∈ g.supertypes d) (back : List EventType) :
    (g.declaredAt (front ++ back) t).1 < front.length := by
  have hlt : front.findIdx (fun d => decide (t ∈ g.supertypes d)) < front.length :=
    List.findIdx_lt_length.mpr ⟨d, hd, decide_eq_true ht⟩
  rw [declaredAt, List.findIdx_append, if_pos hlt]
  exact hlt

/-! ## The search -/

/-- A round of the search: the first pending type is listed, and its supertypes wait behind the others,
unless it is the root or listed. -/
def round (g : TypeGraph) : List EventType × List EventType → List EventType × List EventType
  | (listed, []) => (listed, [])
  | (listed, t :: pending) =>
    if t.isRoot ∨ t ∈ listed then (listed, pending)
    else (listed ++ [t], pending ++ g.supertypes t)

/-- The rounds of a search come to an end, with nothing pending. -/
theorem rounds_end (g : TypeGraph) (listed pending : List EventType) :
    ∃ n, g.round^[n] (listed, pending) = (g.explore listed pending, []) := by
  induction listed, pending using explore.induct g with
  | case1 listed => exact ⟨0, by rw [explore]; rfl⟩
  | case2 listed t pending h ih =>
    obtain ⟨n, hn⟩ := ih
    refine ⟨n + 1, ?_⟩
    rw [explore, if_pos h, Function.iterate_succ_apply, round, if_pos h, hn]
  | case3 listed t pending h ih =>
    obtain ⟨n, hn⟩ := ih
    refine ⟨n + 1, ?_⟩
    rw [explore, if_neg h, Function.iterate_succ_apply, round, if_neg h, hn]

/-- What is put into the queue of a search from `c` that lists these. -/
def queued (g : TypeGraph) (c : EventType) (listed : List EventType) : List EventType :=
  c :: listed.flatMap g.supertypes

/-- Of what was put into its queue a search has taken a first part. It has listed the types other than
the root there in the order in which they came first, each after one that declares it. -/
structure Search (g : TypeGraph) (c : EventType) (taken pending listed : List EventType) : Prop where
  queue : g.queued c listed = taken ++ pending
  mem : ∀ t, t ∈ listed ↔ t ∈ taken ∧ t ≠ .root
  order : listed.Pairwise fun t u => taken.idxOf t < taken.idxOf u
  grown : ∀ front t back, listed = front ++ t :: back → t ∈ g.queued c front

namespace Search

variable {taken pending listed : List EventType}

theorem start (g : TypeGraph) (c : EventType) : Search g c [] [c] [] where
  queue := rfl
  mem t := by simp
  order := List.Pairwise.nil
  grown front t back h := by simp at h

theorem order_append (h : Search g c taken pending listed) (more : List EventType) :
    listed.Pairwise fun t u => (taken ++ more).idxOf t < (taken ++ more).idxOf u := by
  refine h.order.imp_of_mem fun {t u} ht hu htu => ?_
  rw [List.idxOf_append_of_mem ((h.mem t).mp ht).1, List.idxOf_append_of_mem ((h.mem u).mp hu).1]
  exact htu

theorem skip {t : EventType} (h : Search g c taken (t :: pending) listed)
    (ht : t.isRoot ∨ t ∈ listed) : Search g c (taken ++ [t]) pending listed where
  queue := by rw [h.queue, List.append_assoc]; rfl
  mem u := by
    rw [List.mem_append, List.mem_singleton, h.mem]
    constructor
    · exact fun hu => ⟨.inl hu.1, hu.2⟩
    · rintro ⟨hu | rfl, hr⟩
      · exact ⟨hu, hr⟩
      · rcases ht with ht | ht
        · exact absurd (EventType.isRoot_iff.mp ht) hr
        · exact (h.mem u).mp ht
  order := h.order_append [t]
  grown := h.grown

theorem list {t : EventType} (h : Search g c taken (t :: pending) listed)
    (ht : ¬(t.isRoot ∨ t ∈ listed)) :
    Search g c (taken ++ [t]) (pending ++ g.supertypes t) (listed ++ [t]) := by
  obtain ⟨hroot, hlisted⟩ := not_or.mp ht
  have hr : t ≠ .root := fun hr => hroot (EventType.isRoot_iff.mpr hr)
  have hnew : t ∉ taken := fun hm => hlisted ((h.mem t).mpr ⟨hm, hr⟩)
  have hqueue : g.queued c (listed ++ [t]) = g.queued c listed ++ g.supertypes t := by
    simp [queued]
  refine ⟨?_, fun u => ?_, ?_, fun front u back hu => ?_⟩
  · rw [hqueue, h.queue, List.append_assoc, List.append_assoc]
    rfl
  · rw [List.mem_append, List.mem_append, List.mem_singleton, h.mem]
    constructor
    · rintro (hu | rfl)
      · exact ⟨.inl hu.1, hu.2⟩
      · exact ⟨.inr rfl, hr⟩
    · rintro ⟨hu | rfl, hur⟩
      · exact .inl ⟨hu, hur⟩
      · exact .inr rfl
  · refine List.pairwise_append.mpr ⟨h.order_append [t], List.pairwise_singleton _ _, ?_⟩
    intro u hu v hv
    have hmem := ((h.mem u).mp hu).1
    rw [List.mem_singleton.mp hv, List.idxOf_append_of_mem hmem, List.idxOf_append_of_notMem hnew]
    exact Nat.lt_of_lt_of_le (List.idxOf_lt_length_iff.mpr hmem) (Nat.le_add_right _ _)
  · rcases List.eq_nil_or_concat back with rfl | ⟨back, v, rfl⟩
    · obtain ⟨rfl, hut⟩ := List.append_inj' hu rfl
      cases hut
      rw [h.queue]
      exact List.mem_append_right _ (List.mem_cons_self ..)
    · rw [List.concat_eq_append, ← List.cons_append, ← List.append_assoc] at hu
      exact h.grown front u back (List.append_inj' hu rfl).1

theorem explore (h : Search g c taken pending listed) :
    ∃ taken, Search g c taken [] (g.explore listed pending) := by
  induction listed, pending using explore.induct g generalizing taken with
  | case1 listed =>
    rw [TypeGraph.explore]
    exact ⟨taken, h⟩
  | case2 listed t pending ht ih =>
    rw [TypeGraph.explore, if_pos ht]
    exact ih (h.skip ht)
  | case3 listed t pending ht ih =>
    rw [TypeGraph.explore, if_neg ht]
    exact ih (h.list ht)

end Search

/-- A search from `c` is over that has listed these. -/
def Searched (g : TypeGraph) (c : EventType) (listed : List EventType) : Prop :=
  Search g c (g.queued c listed) [] listed

theorem searched (g : TypeGraph) (c : EventType) : g.Searched c (g.explore [] [c]) := by
  obtain ⟨taken, h⟩ := (Search.start g c).explore
  have hq := h.queue
  rw [List.append_nil] at hq
  rw [Searched, hq]
  exact h

/-! ## What a search lists -/

namespace Searched

variable {listed : List EventType} (h : g.Searched c listed)
include h

theorem mem_of_climbs {n : Nat} {t : EventType} (ht : g.Climbs c n t) (hr : t ≠ .root) :
    t ∈ listed := by
  induction ht with
  | here => exact (h.mem c).mpr ⟨List.mem_cons_self .., hr⟩
  | @step n d t _ hd ht ih =>
    refine (h.mem t).mpr ⟨List.mem_cons_of_mem c ?_, hr⟩
    exact List.mem_flatMap.mpr ⟨d, ih hd, ht⟩

theorem climbs_of_mem {t : EventType} (ht : t ∈ listed) : ∃ n, g.Climbs c n t := by
  have climb : ∀ front back, listed = front ++ back → ∀ t ∈ front, ∃ n, g.Climbs c n t := by
    intro front
    induction front using List.reverseRecOn with
    | nil => exact fun _ _ t ht => nomatch ht
    | append_singleton front u ih =>
      intro back hback t ht
      rw [List.append_assoc] at hback
      rcases List.mem_append.mp ht with ht | ht
      · exact ih _ hback t ht
      · rw [List.mem_singleton.mp ht]
        rcases List.mem_cons.mp (h.grown front u back hback) with rfl | hu
        · exact ⟨0, .here⟩
        · obtain ⟨d, hd, hu⟩ := List.mem_flatMap.mp hu
          obtain ⟨n, hn⟩ := ih _ hback d hd
          have hlisted : d ∈ listed := by
            rw [hback]
            exact List.mem_append_left _ hd
          exact ⟨n + 1, .step hn ((h.mem d).mp hlisted).2 hu⟩
  exact climb listed [] (List.append_nil _).symm t ht

theorem mem_iff {t : EventType} : t ∈ listed ↔ t ≠ .root ∧ ∃ n, g.Climbs c n t :=
  ⟨fun ht => ⟨((h.mem t).mp ht).2, h.climbs_of_mem ht⟩, fun ⟨hr, _, hn⟩ => h.mem_of_climbs hn hr⟩

theorem nodup : listed.Nodup := by
  refine h.order.imp fun {t u} htu => ?_
  rintro rfl
  exact Nat.lt_irrefl _ htu

theorem idxOf_of_getElem {i j : Nat} (hi : i < listed.length) (hj : j < listed.length)
    (hij : i ≤ j) :
    (g.queued c listed).idxOf listed[i] ≤ (g.queued c listed).idxOf listed[j] := by
  rcases Nat.eq_or_lt_of_le hij with rfl | hij
  · exact Nat.le_refl _
  · exact Nat.le_of_lt (List.pairwise_iff_getElem.mp h.order i j hi hj hij)

omit h in
theorem declaredAt_lt_of_queued {t u : EventType} (ht : t ∈ g.queued c listed) (htc : t ≠ c)
    (huc : u ≠ c) (htu : (g.queued c listed).idxOf t < (g.queued c listed).idxOf u) :
    Prod.Lex (· < ·) (· < ·) (g.declaredAt listed t) (g.declaredAt listed u) := by
  refine declaredAt_lt ((List.mem_cons.mp ht).resolve_left htc) ?_
  rw [queued, List.idxOf_cons_ne _ htc.symm, List.idxOf_cons_ne _ huc.symm] at htu
  exact Nat.lt_of_succ_lt_succ htu

/-- What is listed first is no farther. -/
theorem distance_le {n : Nat} : ∀ {m : Nat} {t u : EventType}, t ∈ listed → u ∈ listed →
    (g.queued c listed).idxOf t ≤ (g.queued c listed).idxOf u → g.Distance c t m →
      g.Distance c u n → m ≤ n := by
  have first : ∀ {t : EventType}, (g.queued c listed).idxOf t ≤ 0 → t = c := by
    intro t ht
    by_contra htc
    rw [queued, List.idxOf_cons_ne _ (Ne.symm htc)] at ht
    cases ht
  induction n with
  | zero =>
    intro m t u _ _ htu hm hn
    have hu := hn.climbs.zero_eq
    subst hu
    have ht := first (Nat.le_trans htu (Nat.le_of_eq List.idxOf_cons_self))
    subst ht
    exact Nat.le_of_eq hm.of_self
  | succ n ih =>
    intro m t u ht hu htu hm hn
    by_cases htc : t = c
    · subst htc
      rw [hm.of_self]
      exact Nat.zero_le _
    · have huc : u ≠ c := by
        rintro rfl
        exact htc (first (Nat.le_trans htu (Nat.le_of_eq List.idxOf_cons_self)))
      -- The first type that declares `t` is listed no later than one that declares `u` and is nearer.
      obtain ⟨d, hd, hdr, hud⟩ := hn.declared
      have hdl := h.mem_of_climbs hd.climbs hdr
      obtain ⟨x, hx, htx⟩ :=
        List.mem_flatMap.mp ((List.mem_cons.mp ((h.mem t).mp ht).1).resolve_left htc)
      obtain ⟨e, he, hte, -⟩ := exists_declaredAt hx htx
      obtain ⟨-, -, -, hle⟩ := exists_declaredAt hdl hud
      have hplace : (g.declaredAt listed t).1 ≤ (g.declaredAt listed u).1 := by
        rcases Nat.eq_or_lt_of_le htu with htu | htu
        · rw [(List.idxOf_inj ((h.mem t).mp ht).1).mp htu]
        · rcases Prod.lex_def.mp
            (declaredAt_lt_of_queued ((h.mem t).mp ht).1 htc huc htu) with hlt | ⟨heq, -⟩
          · exact Nat.le_of_lt hlt
          · exact Nat.le_of_eq heq
      obtain ⟨hi, rfl⟩ := List.getElem?_eq_some_iff.mp he
      have horder := h.idxOf_of_getElem hi (List.idxOf_lt_length_iff.mpr hdl) (Nat.le_trans hplace hle)
      rw [List.getElem_idxOf] at horder
      have hel : listed[(g.declaredAt listed t).1] ∈ listed := List.getElem_mem hi
      obtain ⟨k, hk⟩ := h.climbs_of_mem hel
      obtain ⟨k, hk⟩ := hk.exists_distance
      have hkn := ih hel hdl horder hk hd
      exact Nat.le_trans (hm.least (k + 1) (.step hk.climbs ((h.mem _).mp hel).2 hte))
        (Nat.succ_le_succ hkn)

theorem ordered : listed.Pairwise fun t u => ∃ m n, g.Distance c t m ∧ g.Distance c u n ∧
    (m < n ∨ m = n ∧ Prod.Lex (· < ·) (· < ·) (g.declaredAt listed t) (g.declaredAt listed u)) := by
  refine h.order.imp_of_mem fun {t u} ht hu htu => ?_
  obtain ⟨m, hm⟩ := (h.climbs_of_mem ht).elim fun _ => Climbs.exists_distance
  obtain ⟨n, hn⟩ := (h.climbs_of_mem hu).elim fun _ => Climbs.exists_distance
  refine ⟨m, n, hm, hn, ?_⟩
  rcases Nat.eq_or_lt_of_le (h.distance_le ht hu (Nat.le_of_lt htu) hm hn) with rfl | hlt
  · have huc : u ≠ c := by
      rintro rfl
      rw [queued, List.idxOf_cons_self] at htu
      cases htu
    have htc : t ≠ c := by
      rintro rfl
      obtain rfl := hm.of_self
      exact huc hn.climbs.zero_eq
    exact .inr ⟨rfl, declaredAt_lt_of_queued ((h.mem t).mp ht).1 htc huc htu⟩
  · exact .inl hlt

/-- Each listed type but the first is declared by one listed before it. -/
theorem declared_before {t : EventType} (ht : t ∈ listed) (htc : t ≠ c) :
    (g.declaredAt listed t).1 < listed.idxOf t := by
  obtain ⟨front, back, hback⟩ := List.append_of_mem ht
  have hnew : t ∉ front := by
    have hn := h.nodup
    rw [hback, List.nodup_append] at hn
    exact fun hm => hn.2.2 t hm t (List.mem_cons_self ..) rfl
  obtain ⟨d, hd, htd⟩ :=
    List.mem_flatMap.mp ((List.mem_cons.mp (h.grown front t back hback)).resolve_left htc)
  rw [hback, List.idxOf_append_of_notMem hnew, List.idxOf_cons_self, Nat.add_zero]
  exact declaredAt_lt_of_mem hd htd _

end Searched

/-! ## What the root declares -/

theorem explore_congr {g' : TypeGraph} (h : ∀ t, t ≠ .root → g'.supertypes t = g.supertypes t)
    (listed pending : List EventType) : g'.explore listed pending = g.explore listed pending := by
  induction listed, pending using explore.induct g with
  | case1 listed => rw [explore, explore]
  | case2 listed t pending ht ih => rw [explore, explore, if_pos ht, if_pos ht, ih]
  | case3 listed t pending ht ih =>
    have hr : t ≠ .root := fun hr => ht (.inl (EventType.isRoot_iff.mpr hr))
    rw [explore, explore, if_neg ht, if_neg ht, h t hr, ih]

/-- The search of a flattening comes to an end. It lists once each type other than the root that steps
to direct supertypes lead to from `c`, and the root comes last. The listed types are ordered by their
distance, those at the same distance by the place of the first listed type that declares them, which
stands before them, and then by their place in its declaration. What the root declares does not
matter. -/
theorem flatten_breadth_first (g : TypeGraph) (c : EventType) :
    ∃ listed, g.flatten c = listed ++ [.root] ∧ (∃ n, g.round^[n] ([], [c]) = (listed, [])) ∧
      listed.Nodup ∧ (∀ t, t ∈ listed ↔ t ≠ .root ∧ ∃ n, g.Climbs c n t) ∧
      listed.Pairwise (fun t u => ∃ m n, g.Distance c t m ∧ g.Distance c u n ∧
        (m < n ∨ m = n ∧
          Prod.Lex (· < ·) (· < ·) (g.declaredAt listed t) (g.declaredAt listed u))) ∧
      (∀ t ∈ listed, t ≠ c → (g.declaredAt listed t).1 < listed.idxOf t) ∧
      (∀ supers, (g.declare .root supers).flatten c = g.flatten c) ∧
      (c = .root → g.flatten c = [.root]) := by
  have h := g.searched c
  refine ⟨g.explore [] [c], rfl, g.rounds_end [] [c], h.nodup, fun t => h.mem_iff, h.ordered,
    fun t => h.declared_before, fun supers => ?_, ?_⟩
  · rw [flatten, flatten, explore_congr fun t ht => supertypes_declare_ne g ht supers]
  · rintro rfl
    exact g.flatten_root

end TypeGraph
end EventBus
