/-
Bounded logs of stamped records.

A log is a list of records with distinct keys and increasing stamps, none of
which exceeds the last stamp given out.  A new record takes the next stamp; if
the log is full, the oldest record that may go makes room for it.

* `Stamped` — the invariant, kept by dropping records and by `Stamped.concat`;
* `makeRoom` — drops the first record that may go, and only from a full log;
* `Stamped.find?_eq` — a record is found under its key.
-/
import Mathlib.Data.List.Nodup
import Mathlib.Data.List.Basic
import Mathlib.Data.List.Induction

universe u v

variable {α : Type u} {κ : Type v}

structure Stamped (key : α → κ) (stamp : α → ℕ) (last : ℕ) (records : List α) : Prop where
  distinct : (records.map key).Nodup
  increasing : records.Pairwise (stamp · < stamp ·)
  positive : ∀ record ∈ records, 0 < stamp record
  bounded : ∀ record ∈ records, stamp record ≤ last

namespace Stamped

variable {key : α → κ} {stamp : α → ℕ} {last : ℕ} {records : List α}

theorem nil : Stamped key stamp last [] :=
  ⟨by simp, by simp, by simp, by simp⟩

theorem sublist (h : Stamped key stamp last records) {kept : List α}
    (hkept : kept.Sublist records) :
    Stamped key stamp last kept where
  distinct := h.distinct.sublist (hkept.map key)
  increasing := h.increasing.sublist hkept
  positive record hrecord := h.positive record (hkept.subset hrecord)
  bounded record hrecord := h.bounded record (hkept.subset hrecord)

/-- Changing records but not their keys and stamps. -/
theorem map (h : Stamped key stamp last records) {change : α → α}
    (hkey : ∀ record, key (change record) = key record)
    (hstamp : ∀ record, stamp (change record) = stamp record) :
    Stamped key stamp last (records.map change) where
  distinct := by
    have hkeys : key ∘ change = key := funext hkey
    rw [List.map_map, hkeys]
    exact h.distinct
  increasing := by
    rw [List.pairwise_map]
    exact h.increasing.imp (fun hlt => by rwa [hstamp, hstamp])
  positive := by
    rw [List.forall_mem_map]
    exact fun record hrecord => (hstamp record).symm ▸ h.positive record hrecord
  bounded := by
    rw [List.forall_mem_map]
    exact fun record hrecord => (hstamp record).symm ▸ h.bounded record hrecord

/-- A new record under the next stamp. -/
theorem concat (h : Stamped key stamp last records) {record : α}
    (hkey : key record ∉ records.map key) (hstamp : stamp record = last + 1) :
    Stamped key stamp (last + 1) (records ++ [record]) where
  distinct := by
    rw [List.map_append, List.nodup_append]
    refine ⟨h.distinct, by simp, ?_⟩
    rintro a ha b hb rfl
    obtain rfl : a = key record := by simpa using hb
    exact hkey ha
  increasing := by
    rw [List.pairwise_append]
    refine ⟨h.increasing, by simp, ?_⟩
    intro other hother added hadded
    obtain rfl : added = record := by simpa using hadded
    have := h.bounded other hother
    omega
  positive other hother := by
    rcases List.mem_append.mp hother with hold | hnew
    · exact h.positive other hold
    · obtain rfl : other = record := by simpa using hnew
      omega
  bounded other hother := by
    rcases List.mem_append.mp hother with hold | hnew
    · have := h.bounded other hold
      omega
    · obtain rfl : other = record := by simpa using hnew
      omega

/-- Distinct positive stamps leave room for at most `last` records. -/
theorem length_le (h : Stamped key stamp last records) : records.length ≤ last := by
  induction records using List.reverseRecOn generalizing last with
  | nil => exact Nat.zero_le _
  | append_singleton records record ih =>
    have hinit : Stamped key stamp (stamp record - 1) records := by
      have hkept := h.sublist (List.sublist_append_left records [record])
      refine ⟨hkept.distinct, hkept.increasing, hkept.positive, ?_⟩
      intro other hother
      have := (List.pairwise_append.mp h.increasing).2.2 other hother record (by simp)
      omega
    have hlength := ih hinit
    have hpositive := h.positive record (by simp)
    have hbounded := h.bounded record (by simp)
    rw [List.length_append, List.length_singleton]
    omega

/-- A record is found under its key. -/
theorem find?_eq [DecidableEq κ] (h : Stamped key stamp last records) {record : α}
    (hrecord : record ∈ records) :
    records.find? (fun other => key other = key record) = some record := by
  have hdistinct := h.distinct
  clear h
  induction records with
  | nil => cases hrecord
  | cons head tail ih =>
    rw [List.map_cons, List.nodup_cons] at hdistinct
    rcases List.mem_cons.mp hrecord with rfl | htail
    · simp
    · have hne : key head ≠ key record := fun heq => hdistinct.1 (heq ▸ List.mem_map_of_mem htail)
      rw [List.find?_cons_of_neg (by simpa using hne)]
      exact ih htail hdistinct.2

theorem pairwise (h : Stamped key stamp last records) :
    records.Pairwise fun left right => key left ≠ key right ∧ stamp left < stamp right := by
  have hkeys := h.distinct
  rw [List.nodup_iff_pairwise_ne, List.pairwise_map] at hkeys
  exact hkeys.and h.increasing

/-- No two records have the same stamp. -/
theorem eq_of_stamp (h : Stamped key stamp last records) {left right : α}
    (hleft : left ∈ records) (hright : right ∈ records) (heq : stamp left = stamp right) :
    left = right := by
  have hstamps : (records.map stamp).Nodup := by
    rw [List.nodup_iff_pairwise_ne, List.pairwise_map]
    exact h.increasing.imp Nat.ne_of_lt
  exact List.inj_on_of_nodup_map hstamps hleft hright heq

/-! ### Making room -/

/-- Drops the oldest record that may go, if the log is full. -/
def makeRoom (capacity : ℕ) (mayGo : α → Bool) (records : List α) : List α :=
  if capacity ≤ records.length then records.eraseP mayGo else records

section MakeRoom

variable {capacity : ℕ} {mayGo : α → Bool}

theorem makeRoom_sublist : (makeRoom capacity mayGo records).Sublist records := by
  unfold makeRoom
  split
  · exact List.eraseP_sublist
  · exact List.Sublist.refl _

theorem mem_makeRoom {record : α} (hrecord : record ∈ records) (hstays : mayGo record = false) :
    record ∈ makeRoom capacity mayGo records := by
  unfold makeRoom
  split
  · exact (List.mem_eraseP_of_neg (by simp [hstays])).mpr hrecord
  · exact hrecord

theorem length_makeRoom_lt (hlength : records.length ≤ capacity) (hcapacity : 0 < capacity)
    (hroom : records.length < capacity ∨ ∃ record ∈ records, mayGo record) :
    (makeRoom capacity mayGo records).length < capacity := by
  unfold makeRoom
  split
  · rename_i hfull
    obtain ⟨record, hrecord, hgoes⟩ : ∃ record ∈ records, mayGo record := by
      rcases hroom with hroom | hroom
      · omega
      · exact hroom
    have := List.length_eraseP_of_mem hrecord hgoes
    omega
  · omega

/-- Drops the oldest records that may go, as many as are asked for. -/
def dropOldest (mayGo : α → Bool) : ℕ → List α → List α
  | 0, records => records
  | count + 1, records => dropOldest mayGo count (records.eraseP mayGo)

theorem dropOldest_concat {record : α} (hstays : mayGo record = false) (count : ℕ)
    (records : List α) :
    dropOldest mayGo count (records ++ [record]) = dropOldest mayGo count records ++ [record] := by
  induction count generalizing records with
  | zero => rfl
  | succ count ih =>
    have herase : (records ++ [record]).eraseP mayGo = records.eraseP mayGo ++ [record] := by
      by_cases hany : ∃ other ∈ records, mayGo other
      · obtain ⟨other, hother, hgoes⟩ := hany
        exact List.eraseP_append_left hgoes [record] hother
      · have hnone : ∀ other ∈ records, ¬mayGo other := fun other hother hgoes =>
          hany ⟨other, hother, hgoes⟩
        rw [List.eraseP_append_right _ hnone, List.eraseP_of_forall_not hnone]
        simp [hstays]
    rw [dropOldest, herase, ih, dropOldest]

end MakeRoom

end Stamped
