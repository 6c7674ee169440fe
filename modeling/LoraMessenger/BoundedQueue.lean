/-
Queues of bounded length.

A new entry goes to the end, and the first one makes room for it if the queue is
full.  So an entry is pushed out only by as many others, all of which have come
to the end of the queue after it.

* `push` — keeps the length bounded and the keys distinct;
* `renew_perm` — an entry that goes to the end;
* `Held` — an entry is in the queue, and those behind it have come since;
* `Held.push`, `Held.renew` — it stays, or is outnumbered.
-/
import Mathlib.Data.List.Nodup
import Mathlib.Data.List.Basic

namespace BoundedQueue

universe u v

variable {α : Type u} {κ : Type v} {key : α → κ} {capacity : ℕ} {queue : List α} {entry added : α}
  {since since' : κ → Prop}

def push (capacity : ℕ) (added : α) (queue : List α) : List α :=
  (if queue.length ≥ capacity then queue.tail else queue) ++ [added]

theorem length_push_le (hpos : 0 < capacity) (h : queue.length ≤ capacity) :
    (push capacity added queue).length ≤ capacity := by
  rw [push, List.length_append, List.length_singleton]
  split
  · rw [List.length_tail]
    omega
  · omega

theorem retained_sublist :
    (if queue.length ≥ capacity then queue.tail else queue).Sublist queue := by
  split
  · exact List.tail_sublist queue
  · exact List.Sublist.refl queue

theorem mem_push (h : entry ∈ push capacity added queue) : entry ∈ queue ∨ entry = added := by
  rcases List.mem_append.mp h with hold | hnew
  · exact .inl (retained_sublist.subset hold)
  · exact .inr (List.mem_singleton.mp hnew)

theorem nodup_concat (h : (queue.map key).Nodup) (hnew : key added ∉ queue.map key) :
    ((queue ++ [added]).map key).Nodup := by
  rw [List.map_append, List.nodup_append]
  refine ⟨h, by simp, ?_⟩
  rintro other hother new hadded rfl
  obtain rfl : other = key added := by simpa using hadded
  exact hnew hother

theorem nodup_push (h : (queue.map key).Nodup) (hnew : key added ∉ queue.map key) :
    ((push capacity added queue).map key).Nodup :=
  nodup_concat (h.sublist (retained_sublist.map key)) fun hmem =>
    hnew ((retained_sublist.map key).subset hmem)

/-- An entry that goes to the end leaves the queue with the same entries. -/
theorem renew_perm {taken : α → Bool} (h : queue.find? taken = some entry) :
    (queue.eraseP taken ++ [entry]).Perm queue := by
  obtain ⟨htaken, front, back, rfl, hfront⟩ := List.find?_eq_some_iff_append.mp h
  have hnone : ∀ other ∈ front, ¬taken other := by
    intro other hother
    simpa using hfront other hother
  rw [List.eraseP_append_right _ hnone, List.eraseP_cons_of_pos htaken, List.append_assoc]
  exact (List.perm_append_singleton entry back).append_left front

/-! ### How long an entry stays -/

/-- The entry is in the queue, and those behind it have come since. -/
def Held (key : α → κ) (queue : List α) (entry : α) (since : κ → Prop) : Prop :=
  ∃ front back, queue = front ++ entry :: back ∧ ∀ other ∈ back, since (key other)

/-- There are enough others to push an entry out. -/
def Outnumbered (capacity : ℕ) (own : κ) (since : κ → Prop) : Prop :=
  ∃ keys : List κ, keys.Nodup ∧ capacity ≤ keys.length ∧ ∀ other ∈ keys, other ≠ own ∧ since other

theorem Outnumbered.mono {own : κ} (h : Outnumbered capacity own since)
    (hsince : ∀ other, since other → since' other) : Outnumbered capacity own since' := by
  obtain ⟨keys, hnodup, hlength, hkeys⟩ := h
  exact ⟨keys, hnodup, hlength, fun other hother =>
    ⟨(hkeys other hother).1, hsince other (hkeys other hother).2⟩⟩

theorem Held.mem (h : Held key queue entry since) : entry ∈ queue := by
  obtain ⟨front, back, rfl, -⟩ := h
  simp

theorem Held.mono (h : Held key queue entry since) (hsince : ∀ other, since other → since' other) :
    Held key queue entry since' := by
  obtain ⟨front, back, hqueue, hback⟩ := h
  exact ⟨front, back, hqueue, fun other hother => hsince _ (hback other hother)⟩

theorem Held.last : Held key (queue ++ [entry]) entry since := ⟨queue, [], rfl, by simp⟩

theorem Held.filter (h : Held key queue entry since) {keep : α → Bool} (hkeep : keep entry) :
    Held key (queue.filter keep) entry since := by
  obtain ⟨front, back, rfl, hback⟩ := h
  refine ⟨front.filter keep, back.filter keep, ?_, fun other hother =>
    hback other (List.mem_filter.mp hother).1⟩
  rw [List.filter_append, List.filter_cons_of_pos hkeep]

/-- Another entry comes. -/
theorem Held.push (h : Held key queue entry since) (hnodup : (queue.map key).Nodup)
    (hnew : key added ∉ queue.map key) (hadded : since (key added)) :
    Held key (push capacity added queue) entry since ∨
      Outnumbered capacity (key entry) since := by
  have hpushed : ((BoundedQueue.push capacity added queue).map key).Nodup := nodup_push hnodup hnew
  obtain ⟨front, back, rfl, hback⟩ := h
  have hbehind : ∀ other ∈ back ++ [added], since (key other) := by
    intro other hother
    rcases List.mem_append.mp hother with hold | hlast
    · exact hback other hold
    · obtain rfl := List.mem_singleton.mp hlast
      exact hadded
  unfold BoundedQueue.push at hpushed ⊢
  split at hpushed
  · rename_i hfull
    rw [if_pos hfull]
    rcases front with _ | ⟨first, front⟩
    · -- The entry is the first one, and all the others have come since.
      refine .inr ⟨(back ++ [added]).map key, hpushed, by simpa using hfull, ?_⟩
      rw [List.forall_mem_map]
      intro other hother
      refine ⟨?_, hbehind other hother⟩
      rcases List.mem_append.mp hother with hold | hlast
      · rw [List.nil_append, List.map_cons, List.nodup_cons] at hnodup
        exact fun heq => hnodup.1 (heq ▸ List.mem_map_of_mem hold)
      · obtain rfl := List.mem_singleton.mp hlast
        exact fun heq => hnew (by simp [heq])
    · exact .inl ⟨front, back ++ [added], by simp, hbehind⟩
  · rename_i hroom
    rw [if_neg hroom]
    exact .inl ⟨front, back ++ [added], by simp, hbehind⟩

/-- Another entry moves to the end. -/
theorem Held.renew (h : Held key queue entry since) {other : α} {taken : α → Bool}
    (htaken : taken entry = false) (hother : since (key other)) :
    Held key (queue.eraseP taken ++ [other]) entry since := by
  obtain ⟨front, back, rfl, hback⟩ := h
  have hbehind (rest : List α) (hrest : rest.Sublist back) :
      ∀ last ∈ rest ++ [other], since (key last) := by
    intro last hlast
    rcases List.mem_append.mp hlast with hold | hnew
    · exact hback last (hrest.subset hold)
    · obtain rfl := List.mem_singleton.mp hnew
      exact hother
  by_cases hfront : ∃ found ∈ front, taken found
  · obtain ⟨found, hfound, htook⟩ := hfront
    refine ⟨front.eraseP taken, back ++ [other], ?_, hbehind back (List.Sublist.refl _)⟩
    rw [List.eraseP_append_left htook _ hfound, List.append_assoc, List.cons_append]
  · have hnone : ∀ found ∈ front, ¬taken found := fun found hfound htook =>
      hfront ⟨found, hfound, htook⟩
    refine ⟨front, back.eraseP taken ++ [other], ?_, hbehind _ List.eraseP_sublist⟩
    rw [List.eraseP_append_right _ hnone, List.eraseP_cons_of_neg (by simp [htaken]),
      List.append_assoc, List.cons_append]

end BoundedQueue
