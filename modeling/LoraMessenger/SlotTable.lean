/-
Tables of a fixed number of slots.

A table is a list; `occupant` says which key a slot is taken for, if any.
Over a table that holds no key twice, `lookup` is a partial map from keys to
slots, and overwriting a slot updates this map at one key.
-/
import Mathlib.Data.List.Basic

namespace SlotTable

variable {α κ : Type*} [DecidableEq κ] (occupant : α → Option κ)

/-- The slot taken for a key. -/
def lookup (key : κ) (slots : List α) : Option α :=
  slots.find? fun slot => decide (occupant slot = some key)

/-- No key has two slots. -/
def Distinct (slots : List α) : Prop :=
  slots.Pairwise fun left right => ∀ key, occupant left = some key → occupant right ≠ some key

variable {occupant} {slots : List α} {key : κ} {index : ℕ} {old new slot : α}

theorem occupant_of_lookup (h : lookup occupant key slots = some slot) :
    slot ∈ slots ∧ occupant slot = some key := by
  refine ⟨List.mem_of_find?_eq_some h, ?_⟩
  have hfound := List.find?_some h
  exact of_decide_eq_true hfound

theorem lookup_eq_none : lookup occupant key slots = none ↔
    ∀ slot ∈ slots, occupant slot ≠ some key := by
  simp only [lookup, List.find?_eq_none, decide_eq_true_eq, ne_eq]

/-- In a table without double keys the order of the slots does not matter. -/
theorem lookup_eq_some (hdistinct : Distinct occupant slots) :
    lookup occupant key slots = some slot ↔ slot ∈ slots ∧ occupant slot = some key := by
  refine ⟨occupant_of_lookup, ?_⟩
  rintro ⟨hmem, hkey⟩
  induction slots with
  | nil => exact absurd hmem (List.not_mem_nil)
  | cons head tail ih =>
    rw [Distinct, List.pairwise_cons] at hdistinct
    rw [lookup, List.find?_cons]
    by_cases hhead : occupant head = some key
    · rw [decide_eq_true hhead]
      rcases List.mem_cons.mp hmem with rfl | htail
      · rfl
      · exact absurd hkey (hdistinct.1 slot htail key hhead)
    · rw [decide_eq_false hhead]
      rcases List.mem_cons.mp hmem with rfl | htail
      · exact absurd hkey hhead
      · exact ih hdistinct.2 htail

/-! ### Overwriting a slot -/

omit [DecidableEq κ] in
/-- A new slot may take the place of an old one if nothing else has its key. -/
theorem Distinct.set (hdistinct : Distinct occupant slots)
    (hnew : ∀ position other newKey, slots[position]? = some other → position ≠ index →
      occupant new = some newKey → occupant other ≠ some newKey) :
    Distinct occupant (slots.set index new) := by
  rw [Distinct, List.pairwise_iff_getElem] at hdistinct ⊢
  intro i j hi hj hij key hkey
  rw [List.length_set] at hi hj
  rw [List.getElem_set] at hkey ⊢
  split at hkey
  · rename_i hindex
    rw [if_neg (by omega)]
    exact hnew j _ key (List.getElem?_eq_getElem hj) (by omega) hkey
  · rename_i hindex
    split
    · rename_i hj'
      intro hnewKey
      exact hnew i _ key (List.getElem?_eq_getElem hi) (by omega) hnewKey hkey
    · exact hdistinct i j hi hj hij key hkey

/-- Only the key of an overwritten slot is affected. -/
theorem lookup_set_of_ne (hold : slots[index]? = some old) (holdKey : occupant old ≠ some key)
    (hnewKey : occupant new ≠ some key) :
    lookup occupant key (slots.set index new) = lookup occupant key slots := by
  induction slots generalizing index with
  | nil => rfl
  | cons head tail ih =>
    cases index with
    | zero =>
      rw [List.getElem?_cons_zero, Option.some.injEq] at hold
      subst hold
      simp only [lookup, List.set_cons_zero, List.find?_cons, decide_eq_false holdKey,
        decide_eq_false hnewKey]
    | succ index =>
      have htail := ih hold
      simp only [lookup, List.set_cons_succ, List.find?_cons] at htail ⊢
      rw [htail]

/-- The key of a slot that was written is found there. -/
theorem lookup_set_self (hdistinct : Distinct occupant (slots.set index new))
    (hindex : index < slots.length) (hnewKey : occupant new = some key) :
    lookup occupant key (slots.set index new) = some new :=
  (lookup_eq_some hdistinct).mpr ⟨List.mem_set hindex new, hnewKey⟩

/-- Freeing the slot of a key removes the key. -/
theorem lookup_set_free (hdistinct : Distinct occupant slots) (hold : slots[index]? = some old)
    (holdKey : occupant old = some key) (hnew : occupant new = none) :
    lookup occupant key (slots.set index new) = none := by
  rw [lookup_eq_none]
  intro slot hmem hkey
  obtain ⟨position, hlt, hslot⟩ := List.mem_iff_getElem.mp hmem
  rw [List.length_set] at hlt
  rw [List.getElem_set] at hslot
  obtain ⟨hindexLt, holdEq⟩ := List.getElem?_eq_some_iff.mp hold
  split at hslot
  · rw [← hslot, hnew] at hkey
    exact absurd hkey (by simp)
  · rename_i hne
    rw [Distinct, List.pairwise_iff_getElem] at hdistinct
    subst hslot
    rcases Nat.lt_or_gt_of_ne hne with h | h
    · exact hdistinct index position hindexLt hlt h key (holdEq ▸ holdKey) hkey
    · exact hdistinct position index hlt hindexLt h key hkey (holdEq ▸ holdKey)

/-! ### Freeing every slot that meets a condition -/

section Sweep

variable {empty : α} {expired : α → Bool}

/-- Replace the slots that meet a condition. -/
def sweep (empty : α) (expired : α → Bool) (slots : List α) : List α :=
  slots.map fun slot => if expired slot then empty else slot

theorem mem_sweep (hmem : slot ∈ sweep empty expired slots) :
    slot = empty ∨ (slot ∈ slots ∧ expired slot = false) := by
  obtain ⟨original, horiginal, rfl⟩ := List.mem_map.mp hmem
  by_cases hexpired : expired original = true
  · exact Or.inl (if_pos hexpired)
  · rw [if_neg hexpired]
    exact Or.inr ⟨horiginal, Bool.eq_false_iff.mpr hexpired⟩

theorem sweep_of_forall (h : ∀ slot ∈ slots, expired slot = false) :
    sweep empty expired slots = slots := by
  refine (List.map_congr_left fun slot hslot => ?_).trans (List.map_id slots)
  rw [h slot hslot]
  rfl

/-- The slots that are replaced are those that are no longer used. -/
theorem countP_sweep {used : α → Bool} (hempty : used empty = false)
    (hexpired : ∀ slot, expired slot = true → used slot = true) (slots : List α) :
    (sweep empty expired slots).countP used + slots.countP expired = slots.countP used := by
  induction slots with
  | nil => rfl
  | cons slot slots ih =>
    rw [sweep, List.map_cons, ← sweep, List.countP_cons, List.countP_cons, List.countP_cons]
    rcases hslot : expired slot with _ | _
    · simp only [Bool.false_eq_true, if_false]
      omega
    · simp only [if_true, hempty, hexpired slot hslot, Bool.false_eq_true, if_false]
      omega

omit [DecidableEq κ] in
theorem Distinct.sweep (hdistinct : Distinct occupant slots) (hempty : occupant empty = none) :
    Distinct occupant (sweep empty expired slots) := by
  refine List.Pairwise.map _ ?_ hdistinct
  intro left right hne key hleft hright
  split at hleft
  · rw [hempty] at hleft
    exact absurd hleft (by simp)
  · split at hright
    · rw [hempty] at hright
      exact absurd hright (by simp)
    · exact hne key hleft hright

theorem lookup_sweep (key : κ) (expired : α → Bool) (hdistinct : Distinct occupant slots)
    (hempty : occupant empty = none) :
    lookup occupant key (sweep empty expired slots) =
      (lookup occupant key slots).filter fun slot => !expired slot := by
  refine Option.ext fun slot => ?_
  rw [lookup_eq_some (hdistinct.sweep hempty), Option.filter_eq_some_iff,
    lookup_eq_some hdistinct]
  constructor
  · rintro ⟨hmem, hkey⟩
    rcases mem_sweep hmem with rfl | ⟨horiginal, hexpired⟩
    · rw [hempty] at hkey
      exact absurd hkey (by simp)
    · exact ⟨⟨horiginal, hkey⟩, by simp [hexpired]⟩
  · rintro ⟨⟨hmem, hkey⟩, hexpired⟩
    refine ⟨List.mem_map.mpr ⟨slot, hmem, if_neg ?_⟩, hkey⟩
    simpa using hexpired

end Sweep

end SlotTable
