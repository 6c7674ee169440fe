/-
The install id over the lifetimes of an installation.

The id is made at a launch that finds nothing at all on the disk.  Every other
change of the disk keeps the id in the settings or removes the settings, so an
id is never replaced by another one while anything is left of the old one.

* `DiskStep.installId` — what one change of the disk does to the id;
* `bootstrap_random` — with anything on the disk, a start asks for no new id;
* `install_id_never_rotated` — what this says of all lifetimes.
-/
import LoraMessenger.Lifetime

namespace Lora

open Crash

/-- The install id in the settings. -/
def Disk.installId (disk : Disk) : Option InstallId :=
  match disk.settings with
  | .stored settings => some settings.installId
  | _ => none

theorem Commit.installId {change : Change} {v v' : Committed} (h : Commit change v v') :
    v'.settings.installId = v.settings.installId := by
  cases h with
  | settings hinstall => exact hinstall
  | sequence hinstall => exact hinstall
  | received h => rw [h.settings]
  | composed _ h => rw [h.settings]
  | delivered hsettings => rw [hsettings]

/-- A change keeps the id, makes one where there is nothing at all, or removes the
settings. -/
theorem DiskStep.installId {cause : Cause} {d d' : Disk} (h : DiskStep cause d d') :
    d'.installId = d.installId ∧ (cause = .start → d.installId ≠ none) ∨
      (cause = .start ∧ d = ⟨.missing, .missing⟩ ∧ d'.installId ≠ none) ∨
      (cause = .erase ∧ d'.installId = none) := by
  cases h with
  | launch installId userId => exact .inr (.inl ⟨rfl, rfl, by simp [Disk.installId]⟩)
  | create => exact .inl ⟨rfl, fun _ => by simp [Disk.installId]⟩
  | bind => exact .inl ⟨rfl, fun _ => by simp [Disk.installId]⟩
  | finalize => exact .inl ⟨rfl, fun _ => by simp [Disk.installId]⟩
  | seed => exact .inl ⟨rfl, fun _ => by simp [Disk.installId]⟩
  | retire => exact .inl ⟨rfl, fun _ => by simp [Disk.installId]⟩
  | commit h => exact .inl ⟨congrArg some h.installId, fun hcause => by cases hcause⟩
  | eraseSettings => exact .inr (.inr ⟨rfl, rfl⟩)
  | eraseHistory => exact .inr (.inr ⟨rfl, rfl⟩)

namespace Reaches

variable {allowed : Cause → Prop} {d d' : Disk} {installId : InstallId}

theorem installId_kept (h : Reaches allowed d d') (herase : ¬allowed .erase)
    (hd : d.installId = some installId) : d'.installId = some installId := by
  have hkeeps : ∀ cause e e', allowed cause → DiskStep cause e e' →
      e.installId = some installId → e'.installId = some installId := by
    intro cause e e' hcause hstep he
    rcases hstep.installId with ⟨hsame, -⟩ | ⟨-, rfl, -⟩ | ⟨rfl, -⟩
    · exact hsame.trans he
    · cases he
    · exact absurd hcause herase
  exact h.keeps hkeeps hd

theorem installId_old (h : Reaches allowed d d') (hstart : ¬allowed .start)
    (hd' : d'.installId = some installId) : d.installId = some installId := by
  have hkeeps : ∀ cause e e', allowed cause → DiskStep cause e e' →
      e.installId = none ∨ e.installId = d.installId →
      e'.installId = none ∨ e'.installId = d.installId := by
    intro cause e e' hcause hstep he
    rcases hstep.installId with ⟨hsame, -⟩ | ⟨rfl, -⟩ | ⟨-, hnone⟩
    · rwa [hsame]
    · exact absurd hcause hstart
    · exact .inl hnone
  rcases h.keeps hkeeps (.inr rfl) with hnone | hsame
  · rw [hnone] at hd'
    cases hd'
  · exact hsame ▸ hd'

end Reaches

theorem StartReaches.installId {d d' : Disk} {installId : InstallId} (h : StartReaches d d')
    (hd' : d'.installId = some installId) :
    d.installId = some installId ∨ d = ⟨.missing, .missing⟩ := by
  -- Once a start has changed anything, there are settings, so no id is made any more.
  have hkeeps : ∀ cause e e', cause = Cause.start → DiskStep cause e e' →
      e = d ∨ (e.installId ≠ none ∧ (e.installId = d.installId ∨ d = ⟨.missing, .missing⟩)) →
      e' = d ∨ (e'.installId ≠ none ∧ (e'.installId = d.installId ∨ d = ⟨.missing, .missing⟩)) := by
    rintro cause e e' rfl hstep he
    rcases hstep.installId with ⟨hsame, hsome⟩ | ⟨-, rfl, hnew⟩ | ⟨hcause, -⟩
    · rw [hsame]
      rcases he with rfl | he
      · exact .inr ⟨hsome rfl, .inl rfl⟩
      · exact .inr he
    · rcases he with rfl | ⟨hsome, -⟩
      · exact .inr ⟨hnew, .inr rfl⟩
      · exact absurd rfl hsome
    · cases hcause
  rcases Reaches.keeps h hkeeps (.inl rfl) with rfl | ⟨-, hsame | hempty⟩
  · exact .inl hd'
  · exact .inl (hsame ▸ hd')
  · exact .inr hempty

/-! ### Starts -/

theorem bootstrapMissingSettings_random {m : Machine Session Disk}
    (hhistory : m.durable.history ≠ .missing) (random random' : Option (Vector UInt8 16)) :
    Session.bootstrapMissingSettings random m = Session.bootstrapMissingSettings random' m := by
  unfold Session.bootstrapMissingSettings
  refine bind_eq_of_wp ?_
  unfold hasHistoryArtifact
  rw [wp_bind]
  refine wp_read ?_ ?_ ?_
  · intro rest _
    simp [hhistory]
  · exact fun rest _ => rfl
  · exact fun _ => trivial

/-- With anything on the disk, a start asks for no new id: it does the same whatever
random bytes there are. -/
theorem bootstrap_random {disk : Disk} (hdisk : disk ≠ ⟨.missing, .missing⟩)
    (environment : Session.Environment) (random random' : Option (Vector UInt8 16))
    (faults : List Fault) :
    Session.bootstrap environment random ⟨{}, disk, faults⟩ =
      Session.bootstrap environment random' ⟨{}, disk, faults⟩ := by
  unfold Session.bootstrap
  cases environment with
  | noPaths => rfl
  | noDirectories => rfl
  | lockUnavailable => rfl
  | lockBusy => rfl
  | available =>
    refine bind_eq_of_wp (bind_eq_of_wp ?_)
    unfold discardHistoryProbe
    rw [wp_bind]
    refine wp_read ?_ ?_ ?_
    · intro rest _
      rw [wp_pure, if_pos rfl, if_pos rfl]
      refine bind_eq_of_wp (bind_eq_of_wp ?_)
      unfold loadSettings
      rw [wp_bind]
      refine wp_read ?_ ?_ ?_
      · intro rest _
        dsimp only
        rcases hsettings : disk.settings with _ | _ | settings
        · have hhistory : disk.history ≠ .missing := by
            intro hmissing
            exact hdisk (by rw [← hsettings, ← hmissing])
          rw [wp_pure]
          exact bootstrapMissingSettings_random hhistory random random'
        · rfl
        · dsimp only
          split <;> rfl
      · exact fun rest _ => rfl
      · exact fun _ => trivial
    · exact fun rest _ => rfl
    · exact fun _ => trivial

/-! ### Lifetimes -/

theorem causes_start (c : SessionCall) : ¬c.causes .start := by
  cases c with
  | compose draft random now =>
    rintro (h | ⟨post, -, h⟩)
    · cases h
    · cases h
  | acceptReceivedPost canonicalPost =>
    rintro ⟨post, -, h⟩
    cases h
  | _ => rintro ⟨⟩

namespace World

variable {w : World} {installId : InstallId}

/-- Where the id in the settings comes from. -/
theorem step_installId (hagrees : w.Agrees) {event : WorldEvent}
    (hnew : (w.step event).disk.installId = some installId) :
    w.disk.installId = some installId ∨ (w.disk = ⟨.missing, .missing⟩ ∧
      ∃ environment random faults, event = .start environment random faults) := by
  have hreach := step_reaches_causes hagrees event
  cases event with
  | start environment random faults =>
    exact (StartReaches.installId hreach hnew).imp_right fun hempty => ⟨hempty, _, _, _, rfl⟩
  | call c faults => exact .inl (hreach.installId_old (causes_start c) hnew)
  | scan => exact .inl (hreach.installId_old id hnew)
  | kill => exact .inl hnew

theorem run_installId (hagrees : w.Agrees) {events : List WorldEvent}
    (hkeep : ∀ faults, .call .deleteAll faults ∉ events)
    (hold : w.disk.installId = some installId) :
    (w.run events).disk.installId = some installId := by
  induction events using List.reverseRecOn with
  | nil => exact hold
  | append_singleton events event ih =>
    rw [run_concat]
    refine (step_reaches_causes (run_agrees hagrees events) event).installId_kept ?_
      (ih fun faults hmem => hkeep faults (List.mem_append_left _ hmem))
    cases event with
    | start environment random faults => rintro ⟨⟩
    | call c faults =>
      refine causes_erase ?_
      rintro rfl
      exact hkeep faults (List.mem_append_right _ (List.mem_singleton_self _))
    | scan => exact id
    | kill => exact id

/-- A session in service carries the id of the settings, and so does the history. -/
theorem ready_installId (hagrees : w.Agrees) {session : Session}
    (hprocess : w.process = some session) (hready : session.status = .ready) :
    ∃ settings stored, w.disk = ⟨.stored settings, .stored stored⟩ ∧
      session.messenger.identity.map Identity.installId = some settings.installId ∧
      stored.installId = settings.installId.uuid := by
  obtain ⟨v, hshows, hdisk⟩ := hagrees session hprocess hready
  refine ⟨v.settings, _, hdisk, ?_, rfl⟩
  rw [hshows.identity]
  rfl

end World

/-- A new install id appears only at a start that finds nothing on the disk, and only
such a start asks for random bytes.  A session in service carries the id of the
settings, to which the history is bound, and until everything is deleted every later
session carries the same id. -/
theorem install_id_never_rotated (disk : Disk) (events : List WorldEvent) :
    (∀ event installId,
      (World.run { disk := disk } (events ++ [event])).disk.installId = some installId →
      (World.run { disk := disk } events).disk.installId = some installId ∨
      ((World.run { disk := disk } events).disk = ⟨.missing, .missing⟩ ∧
        ∃ environment random faults, event = .start environment random faults)) ∧
    (∀ environment random random' faults,
      (World.run { disk := disk } events).disk ≠ ⟨.missing, .missing⟩ →
      World.run { disk := disk } (events ++ [.start environment random faults]) =
        World.run { disk := disk } (events ++ [.start environment random' faults])) ∧
    ∀ session, (World.run { disk := disk } events).process = some session →
      session.status = .ready →
      (∃ settings stored,
        (World.run { disk := disk } events).disk = ⟨.stored settings, .stored stored⟩ ∧
        session.messenger.identity.map Identity.installId = some settings.installId ∧
        stored.installId = settings.installId.uuid) ∧
      ∀ further, (∀ faults, .call .deleteAll faults ∉ further) →
        ∀ later, (World.run { disk := disk } (events ++ further)).process = some later →
          later.status = .ready →
          later.messenger.identity.map Identity.installId =
            session.messenger.identity.map Identity.installId := by
  have hagrees := World.run_agrees (World.agrees_off disk) events
  refine ⟨?_, ?_, ?_⟩
  · intro event installId hnew
    rw [World.run_concat] at hnew
    exact World.step_installId hagrees hnew
  · intro environment random random' faults hdisk
    rw [World.run_concat, World.run_concat]
    simp only [World.step, World.start, bootstrap_random hdisk environment random random' faults]
  · intro session hprocess hready
    obtain ⟨settings, stored, hdisk, hsession, hbound⟩ :=
      World.ready_installId hagrees hprocess hready
    refine ⟨⟨settings, stored, hdisk, hsession, hbound⟩, ?_⟩
    intro further hkeep later hlater hlaterReady
    have hkept := World.run_installId hagrees hkeep
      (show _ = some settings.installId by rw [hdisk]; rfl)
    have hrun : (World.run { disk := disk } events).run further =
        World.run { disk := disk } (events ++ further) := (List.foldl_append ..).symm
    rw [hrun] at hkept
    obtain ⟨settings', stored', hdisk', hsession', -⟩ := World.ready_installId
      (World.run_agrees (World.agrees_off disk) (events ++ further)) hlater hlaterReady
    rw [hdisk'] at hkept
    rw [hsession, hsession']
    exact hkept

theorem install_id_never_rotated_sampleEvents :
    (World.run { disk := ⟨.missing, .missing⟩ } sampleEvents).disk ≠ ⟨.missing, .missing⟩ ∧
      World.run { disk := ⟨.missing, .missing⟩ } (sampleEvents ++ [.start .available none []]) =
        World.run { disk := ⟨.missing, .missing⟩ } (sampleEvents ++
          [.start .available (some (Vector.replicate 16 7)) []]) := by
  have hdisk : (World.run { disk := ⟨.missing, .missing⟩ } sampleEvents).disk ≠
      ⟨.missing, .missing⟩ := by decide +kernel
  exact ⟨hdisk, (install_id_never_rotated ⟨.missing, .missing⟩ sampleEvents).2.1 _ _ _ _ hdisk⟩

end Lora
