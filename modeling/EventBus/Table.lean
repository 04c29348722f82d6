/-!
# Tables

A table maps keys to values and keeps its keys in the order in which they came.
-/

namespace EventBus

structure Table (κ β : Type) where
  entries : List (κ × β)

namespace Table

variable {κ β : Type} [DecidableEq κ]

def empty : Table κ β := ⟨[]⟩

instance : Inhabited (Table κ β) := ⟨empty⟩

def get? (t : Table κ β) (k : κ) : Option β := t.entries.lookup k

def keys (t : Table κ β) : List κ := t.entries.map (·.1)

def values (t : Table κ β) : List β := t.entries.map (·.2)

def size (t : Table κ β) : Nat := t.entries.length

def isEmpty (t : Table κ β) : Bool := t.entries.isEmpty

def put (k : κ) (v : β) : List (κ × β) → List (κ × β)
  | [] => [(k, v)]
  | e :: es => if e.1 = k then (k, v) :: es else e :: put k v es

/-- Gives `k` the value `v`, at its place if it has one and at the end otherwise. -/
def set (t : Table κ β) (k : κ) (v : β) : Table κ β := ⟨put k v t.entries⟩

def erase (t : Table κ β) (k : κ) : Table κ β := ⟨t.entries.filter (·.1 ≠ k)⟩

@[simp] theorem get?_empty (k : κ) : (empty : Table κ β).get? k = none := rfl

theorem lookup_put_self (k : κ) (v : β) (es : List (κ × β)) : (put k v es).lookup k = some v := by
  induction es with
  | nil => simp [put]
  | cons e es ih =>
    obtain ⟨i, w⟩ := e
    by_cases h : i = k
    · simp [put, h]
    · have : (k == i) = false := by simpa using fun hk => h hk.symm
      simp [put, h, List.lookup_cons, this, ih]

theorem lookup_put_ne {k j : κ} (h : j ≠ k) (v : β) (es : List (κ × β)) :
    (put k v es).lookup j = es.lookup j := by
  have hjk : (j == k) = false := by simpa using h
  induction es with
  | nil => simp [put, List.lookup_cons, hjk]
  | cons e es ih =>
    obtain ⟨i, w⟩ := e
    by_cases hi : i = k
    · subst hi; simp [put, List.lookup_cons, hjk]
    · simp [put, hi, List.lookup_cons, ih]

@[simp] theorem get?_set_self (t : Table κ β) (k : κ) (v : β) : (t.set k v).get? k = some v :=
  lookup_put_self k v t.entries

theorem get?_set_ne (t : Table κ β) {k j : κ} (h : j ≠ k) (v : β) :
    (t.set k v).get? j = t.get? j :=
  lookup_put_ne h v t.entries

theorem lookup_filter_self (k : κ) (es : List (κ × β)) :
    (es.filter (·.1 ≠ k)).lookup k = none := by
  induction es with
  | nil => rfl
  | cons e es ih =>
    obtain ⟨i, w⟩ := e
    by_cases hi : i = k
    · simpa [List.filter_cons, hi] using ih
    · have : (k == i) = false := by simpa using fun hk => hi hk.symm
      simpa [List.filter_cons, hi, List.lookup_cons, this] using ih

theorem lookup_filter_ne {k j : κ} (h : j ≠ k) (es : List (κ × β)) :
    (es.filter (·.1 ≠ k)).lookup j = es.lookup j := by
  induction es with
  | nil => rfl
  | cons e es ih =>
    obtain ⟨i, w⟩ := e
    by_cases hi : i = k
    · subst hi
      have : (j == i) = false := by simpa using h
      simpa [List.filter_cons, List.lookup_cons, this] using ih
    · simp only [List.filter_cons, hi, ne_eq, not_false_eq_true, decide_true, if_true,
        List.lookup_cons]
      simp only [ne_eq] at ih
      rw [ih]

@[simp] theorem get?_erase_self (t : Table κ β) (k : κ) : (t.erase k).get? k = none :=
  lookup_filter_self k t.entries

theorem get?_erase_ne (t : Table κ β) {k j : κ} (h : j ≠ k) : (t.erase k).get? j = t.get? j :=
  lookup_filter_ne h t.entries

/-! ## Entries and keys -/

theorem mem_put {k : κ} {v : β} {es : List (κ × β)} {e : κ × β} (h : e ∈ put k v es) :
    e = (k, v) ∨ e ∈ es := by
  induction es with
  | nil => simpa [put] using h
  | cons d es ih =>
    unfold put at h
    split at h
    · rcases List.mem_cons.mp h with h | h
      · exact .inl h
      · exact .inr (List.mem_cons_of_mem _ h)
    · rcases List.mem_cons.mp h with h | h
      · exact .inr (h ▸ List.mem_cons_self ..)
      · exact (ih h).imp id (List.mem_cons_of_mem _)

theorem mem_set {t : Table κ β} {k : κ} {v : β} {e : κ × β} (h : e ∈ (t.set k v).entries) :
    e = (k, v) ∨ e ∈ t.entries :=
  mem_put h

theorem keys_put (k : κ) (v : β) (es : List (κ × β)) :
    (put k v es).map (·.1) =
      if k ∈ es.map (·.1) then es.map (·.1) else es.map (·.1) ++ [k] := by
  induction es with
  | nil => rfl
  | cons e es ih =>
    by_cases h : e.1 = k
    · simp [put, h]
    · simp only [put, h, if_false, List.map_cons, ih, List.mem_cons, Ne.symm h, false_or]
      split <;> rfl

theorem keys_set (t : Table κ β) (k : κ) (v : β) :
    (t.set k v).keys = if k ∈ t.keys then t.keys else t.keys ++ [k] :=
  keys_put k v t.entries

theorem nodup_keys_set {t : Table κ β} (h : t.keys.Nodup) (k : κ) (v : β) :
    (t.set k v).keys.Nodup := by
  rw [keys_set]
  split
  · exact h
  · rename_i hk
    exact List.nodup_append.mpr ⟨h, by simp, fun a ha b hb => by
      rw [List.mem_singleton.mp hb]; exact fun e => hk (e ▸ ha)⟩

theorem mem_of_get? {t : Table κ β} {k : κ} {v : β} (h : t.get? k = some v) :
    (k, v) ∈ t.entries := by
  obtain ⟨l₁, l₂, heq, -⟩ := List.lookup_eq_some_iff.1 h
  simp [heq]

theorem get?_of_mem {t : Table κ β} (hn : t.keys.Nodup) {k : κ} {v : β} (h : (k, v) ∈ t.entries) :
    t.get? k = some v := by
  obtain ⟨es⟩ := t
  simp only [keys, get?] at *
  induction es with
  | nil => cases h
  | cons e es ih =>
    obtain ⟨i, w⟩ := e
    rw [List.map_cons, List.nodup_cons] at hn
    rcases List.mem_cons.mp h with h | h
    · cases h; simp
    · have hki : (k == i) = false := by
        simpa using fun hk : k = i => hn.1 (hk ▸ List.mem_map_of_mem (f := (·.1)) h)
      simp [List.lookup_cons, hki, ih hn.2 h]

end Table
end EventBus
