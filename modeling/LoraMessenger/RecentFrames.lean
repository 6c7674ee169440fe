/-
The datagrams of posts committed a short while ago.

They are kept in a bounded queue.  A datagram that comes in again moves to the
end, one that is committed again stays where it is, and its deadline is that of
the commit which put it in.  So what the queue knows follows from what happened
to the datagrams, in order.

* `CacheEvent`, `LastInserted` — what can happen to a datagram;
* `Kept` — a datagram is found until its deadline, or until it is outnumbered;
* `Cached` — the invariant, kept by `expire`, `hit` and `rememberFrames`.
-/
import LoraMessenger.BoundedQueue
import LoraMessenger.Ingress
import Mathlib.Data.List.Dedup
import Mathlib.Data.List.DropRight
import Mathlib.Data.List.Perm.Subperm

namespace Lora

inductive CacheEvent where
  | inserted (datagram : Bytes) (committedTick : ℕ)
  | hit (datagram : Bytes)
deriving DecidableEq

namespace CacheEvent

def datagram : CacheEvent → Bytes
  | inserted datagram _ => datagram
  | hit datagram => datagram

/-- The datagram was last put in at the tick, and this is what has happened since. -/
def LastInserted (events : List CacheEvent) (datagram : Bytes) (committedTick : ℕ)
    (since : List CacheEvent) : Prop :=
  (∃ past, events = past ++ inserted datagram committedTick :: since) ∧
    ∀ tick, inserted datagram tick ∉ since

/-- What has happened since a datagram was last put in or last came in again. -/
def sinceHit (datagram : Bytes) (since : List CacheEvent) : List CacheEvent :=
  since.rtakeWhile fun event => event ≠ hit datagram

/-- The other datagrams that were put in or came in again meanwhile. -/
def others (datagram : Bytes) (since : List CacheEvent) : List Bytes :=
  (((sinceHit datagram since).map CacheEvent.datagram).filter (· ≠ datagram)).dedup

variable {events since : List CacheEvent} {datagram : Bytes} {committedTick : ℕ}
    {event : CacheEvent}

theorem lastInserted_concat : LastInserted (events ++ [event]) datagram committedTick since ↔
    (event = inserted datagram committedTick ∧ since = []) ∨
    ((∀ tick, event ≠ inserted datagram tick) ∧
      ∃ before, since = before ++ [event] ∧ LastInserted events datagram committedTick before) := by
  constructor
  · rintro ⟨⟨past, hevents⟩, hnone⟩
    rcases List.eq_nil_or_concat' since with rfl | ⟨before, last, rfl⟩
    · have hlast := List.append_inj' hevents rfl
      exact .inl ⟨by simpa using hlast.2, rfl⟩
    · rw [← List.cons_append, ← List.append_assoc] at hevents
      obtain ⟨hbefore, hlast⟩ := List.append_inj' hevents rfl
      obtain rfl : event = last := by simpa using hlast
      refine .inr ⟨?_, before, rfl, ⟨past, hbefore⟩, fun tick hmem => hnone tick (by simp [hmem])⟩
      rintro tick rfl
      exact hnone tick (by simp)
  · rintro (⟨rfl, rfl⟩ | ⟨hother, before, rfl, ⟨past, rfl⟩, hnone⟩)
    · exact ⟨⟨events, rfl⟩, by simp⟩
    · refine ⟨⟨past, by simp⟩, fun tick hmem => ?_⟩
      rcases List.mem_append.mp hmem with hbefore | hlast
      · exact hnone tick hbefore
      · exact hother tick (List.mem_singleton.mp hlast).symm

/-- There is only one last time. -/
theorem LastInserted.unique {tick₁ tick₂ : ℕ} {since₁ since₂ : List CacheEvent}
    (h₁ : LastInserted events datagram tick₁ since₁)
    (h₂ : LastInserted events datagram tick₂ since₂) :
    tick₁ = tick₂ ∧ since₁ = since₂ := by
  induction events using List.reverseRecOn generalizing since₁ since₂ with
  | nil =>
    obtain ⟨⟨past, hevents⟩, -⟩ := h₁
    simp at hevents
  | append_singleton events event ih =>
    rcases lastInserted_concat.mp h₁ with ⟨rfl, rfl⟩ | ⟨hother₁, before₁, rfl, hbefore₁⟩
    · rcases lastInserted_concat.mp h₂ with ⟨heq, rfl⟩ | ⟨hother₂, -⟩
      · exact ⟨by simpa using heq, rfl⟩
      · exact absurd rfl (hother₂ tick₁)
    · rcases lastInserted_concat.mp h₂ with ⟨rfl, rfl⟩ | ⟨-, before₂, rfl, hbefore₂⟩
      · exact absurd rfl (hother₁ tick₂)
      · obtain ⟨htick, rfl⟩ := ih hbefore₁ hbefore₂
        exact ⟨htick, rfl⟩

@[simp] theorem sinceHit_nil : sinceHit datagram [] = [] := rfl

theorem sinceHit_concat (h : event ≠ hit datagram) :
    sinceHit datagram (since ++ [event]) = sinceHit datagram since ++ [event] := by
  simp [sinceHit, h]

theorem mem_sinceHit_concat {other : Bytes} (h : event ≠ hit datagram)
    (hother : other ∈ (sinceHit datagram since).map CacheEvent.datagram) :
    other ∈ (sinceHit datagram (since ++ [event])).map CacheEvent.datagram := by
  rw [sinceHit_concat h, List.map_append]
  exact List.mem_append_left _ hother

theorem last_mem_sinceHit (h : event ≠ hit datagram) :
    event.datagram ∈ (sinceHit datagram (since ++ [event])).map CacheEvent.datagram := by
  rw [sinceHit_concat h]
  exact List.mem_map_of_mem (by simp)

/-- Fewer others than there is room for do not push a datagram out. -/
theorem not_outnumbered {capacity : ℕ} (h : (others datagram since).length < capacity) :
    ¬BoundedQueue.Outnumbered capacity datagram
      (· ∈ (sinceHit datagram since).map CacheEvent.datagram) := by
  rintro ⟨keys, hnodup, hlength, hkeys⟩
  have hsubset : keys ⊆ others datagram since := by
    intro key hkey
    obtain ⟨hne, hsince⟩ := hkeys key hkey
    rw [others, List.mem_dedup, List.mem_filter]
    exact ⟨hsince, by simpa using hne⟩
  have hle := (List.subperm_of_subset hnodup hsubset).length_le
  omega

end CacheEvent

/-! ### What the queue knows -/

namespace RecentFrame

open CacheEvent

/-- The deadline that a commit sets. -/
def deadlineOf (committedTick : ℕ) : ℕ := saturatingDeadline committedTick kReassemblyTimeoutTicks

/-- A datagram is found until its deadline, or until it is outnumbered. -/
def Kept (recent : List RecentFrame) (events : List CacheEvent) (now : ℕ) : Prop :=
  ∀ datagram committedTick since, LastInserted events datagram committedTick since →
    now < deadlineOf committedTick →
    BoundedQueue.Held RecentFrame.datagram recent ⟨datagram, deadlineOf committedTick⟩
        (· ∈ (sinceHit datagram since).map CacheEvent.datagram) ∨
      BoundedQueue.Outnumbered kMaximumRecentFrames datagram
        (· ∈ (sinceHit datagram since).map CacheEvent.datagram)

structure Cached (recent : List RecentFrame) (events : List CacheEvent) : Prop where
  bounded : recent.length ≤ kMaximumRecentFrames
  distinct : (recent.map RecentFrame.datagram).Nodup
  dated : ∀ frame ∈ recent, ∃ committedTick since,
    LastInserted events frame.datagram committedTick since ∧
      frame.deadline = deadlineOf committedTick

variable {recent : List RecentFrame} {events : List CacheEvent} {now : ℕ}

theorem Cached.nil (events : List CacheEvent) : Cached [] events := ⟨by simp, by simp, by simp⟩

theorem Kept.nil (recent : List RecentFrame) (now : ℕ) : Kept recent [] now := by
  rintro datagram committedTick since ⟨⟨past, hevents⟩, -⟩
  simp at hevents

theorem Cached.filter (h : Cached recent events) (keep : RecentFrame → Bool) :
    Cached (recent.filter keep) events where
  bounded := Nat.le_trans (List.length_filter_le _ _) h.bounded
  distinct := h.distinct.sublist (List.filter_sublist.map _)
  dated frame hframe := h.dated frame (List.mem_filter.mp hframe).1

theorem Kept.expire (h : Kept recent events now) :
    Kept (recent.filter fun frame => !deadlineReached now frame.deadline) events now := by
  intro datagram committedTick since hlast hearly
  rcases h datagram committedTick since hlast hearly with hheld | hmany
  · exact .inl (hheld.filter (by simpa [deadlineReached] using hearly))
  · exact .inr hmany

theorem Kept.mono {later : ℕ} (h : Kept recent events now) (hlater : now ≤ later) :
    Kept recent events later := fun datagram committedTick since hlast hearly =>
  h datagram committedTick since hlast (Nat.lt_of_le_of_lt hlater hearly)

section Insert

variable {datagram : Bytes} {committedTick : ℕ}

/-- A datagram that is not in the queue is put in. -/
theorem Cached.insert (h : Cached recent events) (hnew : datagram ∉ recent.map RecentFrame.datagram)
    (committedTick : ℕ) :
    Cached (BoundedQueue.push kMaximumRecentFrames ⟨datagram, deadlineOf committedTick⟩ recent)
      (events ++ [.inserted datagram committedTick]) where
  bounded := BoundedQueue.length_push_le (by decide) h.bounded
  distinct := BoundedQueue.nodup_push h.distinct hnew
  dated frame hframe := by
    rcases BoundedQueue.mem_push hframe with hold | rfl
    · obtain ⟨tick, since, hlast, hdeadline⟩ := h.dated frame hold
      have hne : frame.datagram ≠ datagram := fun heq => hnew (heq ▸ List.mem_map_of_mem hold)
      refine ⟨tick, since ++ [.inserted datagram committedTick], ?_, hdeadline⟩
      refine lastInserted_concat.mpr (.inr ⟨?_, since, rfl, hlast⟩)
      intro other heq
      exact hne (CacheEvent.inserted.inj heq).1.symm
    · exact ⟨committedTick, [], lastInserted_concat.mpr (.inl ⟨rfl, rfl⟩), rfl⟩

theorem Kept.insert (hcached : Cached recent events) (h : Kept recent events now)
    (hnew : datagram ∉ recent.map RecentFrame.datagram) :
    Kept (BoundedQueue.push kMaximumRecentFrames ⟨datagram, deadlineOf committedTick⟩ recent)
      (events ++ [.inserted datagram committedTick]) now := by
  intro known tick since hlast hearly
  rcases lastInserted_concat.mp hlast with ⟨heq, rfl⟩ | ⟨-, before, rfl, hbefore⟩
  · obtain ⟨rfl, rfl⟩ := CacheEvent.inserted.inj heq
    exact .inl BoundedQueue.Held.last
  · have hevent : CacheEvent.inserted datagram committedTick ≠ .hit known := by simp
    rcases h known tick before hbefore hearly with hheld | hmany
    · exact (hheld.mono fun _ => mem_sinceHit_concat hevent).push hcached.distinct hnew
        (last_mem_sinceHit hevent)
    · exact .inr (hmany.mono fun _ => mem_sinceHit_concat hevent)

end Insert

section Hit

variable {datagram : Bytes} {retained : RecentFrame}
  (hfound : recent.find? (fun frame => frame.datagram = datagram) = some retained)

include hfound

theorem datagram_of_find : retained.datagram = datagram := by
  simpa using List.find?_some hfound

/-- A datagram that comes in again goes to the end. -/
theorem Cached.hit (h : Cached recent events) :
    Cached (recent.eraseP (fun frame => frame.datagram = datagram) ++ [retained])
      (events ++ [.hit datagram]) where
  bounded := by
    rw [(BoundedQueue.renew_perm hfound).length_eq]
    exact h.bounded
  distinct := ((BoundedQueue.renew_perm hfound).map _).nodup_iff.mpr h.distinct
  dated frame hframe := by
    obtain ⟨tick, since, hlast, hdeadline⟩ :=
      h.dated frame ((BoundedQueue.renew_perm hfound).mem_iff.mp hframe)
    refine ⟨tick, since ++ [.hit datagram], ?_, hdeadline⟩
    exact lastInserted_concat.mpr (.inr ⟨by simp, since, rfl, hlast⟩)

theorem Kept.hit (hcached : Cached recent events) (h : Kept recent events now) :
    Kept (recent.eraseP (fun frame => frame.datagram = datagram) ++ [retained])
      (events ++ [.hit datagram]) now := by
  intro known tick since hlast hearly
  rcases lastInserted_concat.mp hlast with ⟨heq, -⟩ | ⟨-, before, rfl, hbefore⟩
  · simp at heq
  by_cases hsame : known = datagram
  · subst hsame
    -- Its deadline is still the one of the commit that put it in.
    obtain ⟨committedTick, since, hretained, hdeadline⟩ :=
      hcached.dated retained (List.mem_of_find?_eq_some hfound)
    rw [datagram_of_find hfound] at hretained
    obtain ⟨rfl, -⟩ := hretained.unique hbefore
    have hentry : retained = ⟨known, deadlineOf committedTick⟩ := by
      rw [← hdeadline, ← datagram_of_find hfound]
    rw [hentry]
    exact .inl BoundedQueue.Held.last
  · have hevent : CacheEvent.hit datagram ≠ .hit known := fun heq =>
      hsame (CacheEvent.hit.inj heq).symm
    rcases h known tick before hbefore hearly with hheld | hmany
    · have hstays : decide (known = datagram) = false := by simpa using hsame
      refine .inl ((hheld.mono fun _ => mem_sinceHit_concat hevent).renew hstays ?_)
      rw [datagram_of_find hfound]
      exact last_mem_sinceHit hevent
    · exact .inr (hmany.mono fun _ => mem_sinceHit_concat hevent)

end Hit

end RecentFrame

/-! ### The loop of `mark_committed` -/

namespace InboundFrameQueue

open RecentFrame

/-- What `rememberFrames` puts in, in the same order. -/
def rememberEvents (mtu committedTick : ℕ) : List RecentFrame → List Bytes → List CacheEvent
  | _, [] => []
  | recent, datagram :: datagrams =>
    if datagram.length < kFrameHeaderBytes ∨ datagram.length > mtu then
      rememberEvents mtu committedTick recent datagrams
    else if recent.any fun frame => frame.datagram = datagram then
      rememberEvents mtu committedTick recent datagrams
    else .inserted datagram committedTick :: rememberEvents mtu committedTick
      (BoundedQueue.push kMaximumRecentFrames ⟨datagram, deadlineOf committedTick⟩ recent) datagrams

theorem rememberFrames_cached {events : List CacheEvent} {recent : List RecentFrame}
    (mtu committedTick : ℕ) (datagrams : List Bytes) (h : Cached recent events) :
    Cached (rememberFrames mtu (deadlineOf committedTick) recent datagrams)
        (events ++ rememberEvents mtu committedTick recent datagrams) ∧
      ∀ now, Kept recent events now →
        Kept (rememberFrames mtu (deadlineOf committedTick) recent datagrams)
          (events ++ rememberEvents mtu committedTick recent datagrams) now := by
  induction datagrams generalizing recent events with
  | nil => simpa [rememberFrames, rememberEvents] using h
  | cons datagram datagrams ih =>
    rw [rememberFrames, rememberEvents]
    by_cases hlength : datagram.length < kFrameHeaderBytes ∨ datagram.length > mtu
    · rw [if_pos hlength, if_pos hlength]
      exact ih h
    rw [if_neg hlength, if_neg hlength]
    by_cases hknown : recent.any fun frame => frame.datagram = datagram
    · rw [if_pos hknown, if_pos hknown]
      exact ih h
    rw [if_neg hknown, if_neg hknown]
    have hnew : datagram ∉ recent.map RecentFrame.datagram := by
      intro hmem
      obtain ⟨frame, hframe, rfl⟩ := List.mem_map.mp hmem
      exact hknown (List.any_eq_true.mpr ⟨frame, hframe, by simp⟩)
    obtain ⟨hcached, hkept⟩ := ih (h.insert hnew committedTick)
    rw [List.append_assoc] at hcached hkept
    exact ⟨hcached, fun now hbefore => hkept now (Kept.insert h hbefore hnew)⟩

end InboundFrameQueue

end Lora
