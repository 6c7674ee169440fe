/-
What the programs of the application do.

A key is what the view model does with it, over a messenger whose commits are answered by
the session, and it calls the session at most once.  So a running application is a run of the
view and a run of its process at the same time.

* `wp_handle` — a key, as the view model sees it and as the process does;
* `Reports` — programs that tell whether they have changed something;
* `reports_pump` — a pump tells of every change of the messenger.
-/
import LoraMessenger.App

namespace Lora

open Crash

/-! ### The messenger of a session -/

namespace Session

/-- The program leaves the messenger alone. -/
abbrev Calm {α : Type} (program : SessionM α) : Prop := Keeps Session.messenger program

theorem calm_setStatus (status : PersistentSessionStatus) : Calm (setStatus status) :=
  .update fun _ => rfl

theorem calm_adoptSettings (candidate : SettingsRecord) : Calm (adoptSettings candidate) := by
  unfold adoptSettings
  refine .bind (keeps_saveSettings _) fun saved => ?_
  split
  · exact .bind (.update fun _ => rfl) fun _ => .pure _
  · split
    · exact .bind (calm_setStatus _) fun _ => .pure _
    · exact .pure _

theorem calm_persistIdentity (identity : Identity) : Calm (persistIdentity identity) := by
  unfold persistIdentity
  refine .bind .memory fun session => ?_
  split
  · exact .pure _
  · split
    · exact calm_adoptSettings _
    · exact .pure _

theorem calm_persistTimeline (timeline : Timeline) : Calm (persistTimeline timeline) := by
  unfold persistTimeline
  refine .bind .memory fun session => ?_
  split
  · exact .pure _
  split
  · exact .pure _
  split
  · exact .pure _
  · exact .bind (calm_setStatus _) fun _ => .pure _
  · refine .bind (keeps_saveSnapshot _ _) fun result => ?_
    split
    · exact .bind (calm_setStatus _) fun _ => .pure _
    · exact .bind (.update fun _ => rfl) fun _ => .pure _

theorem calm_setPreference (differs : SettingsRecord → Bool)
    (change : SettingsRecord → SettingsRecord) : Calm (setPreference differs change) := by
  unfold setPreference
  refine .bind .memory fun session => ?_
  split
  · exact .pure _
  split
  · split
    · exact calm_adoptSettings _
    · exact .pure _
  · exact .pure _

end Session

/-! ### A post of the view model -/

/-- A commit that has made up its mind. -/
def StateCommit.answering (identity timeline : Bool) : StateCommit Unit where
  persistIdentity _ _ _ := (identity, ())
  persistTimeline _ _ _ := (timeline, ())

/-- A messenger for the view model. -/
def Messenger.world (messenger : Messenger) : MessengerWorld Unit := ⟨messenger, (), []⟩

/-- The four ways of a commit that has made up its mind. -/
theorem run_compose_answering (draft : PostDraft) (random : Option (Vector UInt8 16))
    (now : Option Int64) (identity : Identity) (timeline : Timeline) (first second : Bool) :
    let messenger : Messenger := ⟨some identity, timeline⟩
    let next := (MessengerState.compose (StateCommit.port (some (.answering first second)))
      draft random now).run messenger.world
    (next.1, next.2.messenger) =
      match messenger.stage identity draft random now with
      | .error result => (result, messenger)
      | .ok staged =>
        if first then
          if second then
            ({ messageId := some staged.post.messageId
               evictedMessageId := staged.inserted.evictedMessageId },
              ⟨some staged.identity, staged.inserted.timeline⟩)
          else ({ error := .persistenceUnavailable }, ⟨some staged.identity, timeline⟩)
        else ({ error := .persistenceUnavailable }, messenger) := by
  intro messenger next
  have hrun : next = (match messenger.stage identity draft random now with
      | .error result => pure result
      | .ok staged => do
        if ← (StateCommit.port (some (.answering first second))).persistIdentity
            staged.identity then
          (StateCommit.port (some (.answering first second))).setIdentity staged.identity
          if ← (StateCommit.port (some (.answering first second))).persistTimeline
              staged.inserted.timeline then
            (StateCommit.port (some (.answering first second))).setTimeline
              staged.inserted.timeline
            pure { messageId := some staged.post.messageId
                   evictedMessageId := staged.inserted.evictedMessageId }
          else pure { error := .persistenceUnavailable }
        else pure { error := .persistenceUnavailable } :
      StateM (MessengerWorld Unit) CommandResult).run messenger.world := rfl
  rw [hrun]
  rcases messenger.stage identity draft random now with result | staged
  · rfl
  · cases first with
    | false => rfl
    | true => cases second <;> rfl

/-- The session composes as a messenger does whose commit answers like the disk. -/
theorem wp_compose_answering (draft : PostDraft) (random : Option (Vector UInt8 16))
    (now : Option Int64) (m : Machine Session Disk) :
    wp (Session.compose draft random now) (fun result m' => ∃ first second,
      let next := (MessengerState.compose (StateCommit.port (some (.answering first second)))
        draft random now).run m.memory.messenger.world
      (next.1, next.2.messenger) = (result, m'.memory.messenger)) (fun _ => True) m := by
  unfold Session.compose
  rw [wp_bind, wp_memory]
  rcases hmessenger : m.memory.messenger with ⟨_ | identity, timeline⟩
  · refine ⟨true, true, ?_⟩
    rw [hmessenger]
    rfl
  simp only [run_compose_answering]
  rcases hstage : Messenger.stage ⟨some identity, timeline⟩ identity draft random now with
    result | staged
  · refine ⟨true, true, ?_⟩
    rw [hmessenger]
  dsimp only
  rw [wp_bind]
  refine wp_mono (Session.calm_persistIdentity _ m) (fun saved m₁ hfirst => ?_) (fun _ h => h)
  rw [hmessenger] at hfirst
  cases saved with
  | false =>
    refine ⟨false, true, ?_⟩
    rw [hfirst]
    rfl
  | true =>
    rw [if_pos rfl, wp_bind, Session.setIdentity, wp_update, wp_bind]
    refine wp_mono (Session.calm_persistTimeline _ _) (fun saved m₂ hsecond => ?_) (fun _ h => h)
    dsimp only at hsecond
    rw [hfirst] at hsecond
    cases saved with
    | false =>
      refine ⟨true, false, ?_⟩
      rw [hsecond]
      rfl
    | true =>
      refine ⟨true, true, ?_⟩
      show _ = (_, (⟨m₂.memory.messenger.identity, staged.inserted.timeline⟩ : Messenger))
      rw [hsecond]
      rfl

/-! ### What a key asks of the session -/

section Port

variable {ε : Type} {random : Option (Vector UInt8 16)} {now : Option Int64}

/-- What the process sees of the application. -/
def inProcess (m : Machine (App ε) Legacy) : Machine (Process ε) Legacy :=
  ⟨m.memory.process, m.durable, m.faults⟩

/-- Nothing happens to the process, or what a call of the user does to it. -/
def AsUser (random : Option (Vector UInt8 16)) (m : Machine (Process ε) Legacy)
    (outcome : Outcome (Process ε) Legacy Unit) : Prop :=
  outcome = .done () m ∨ ∃ c : UserCall, Process.user c m = outcome ∧
    ∀ draft other now, c = .compose draft other now → other = random

/-- Only the session has changed, and as by a call of the user. -/
structure Asked (random : Option (Vector UInt8 16)) (m m' : Machine (App ε) Legacy) : Prop where
  session : m'.memory = { m.memory with
    process := { m.memory.process with session := m'.memory.process.session } }
  asUser : AsUser random (inProcess m) (.done () (inProcess m'))

theorem Asked.refl (m : Machine (App ε) Legacy) : Asked random m m := ⟨rfl, .inl rfl⟩

/-- A program that is a call of the user, up to what it returns. -/
theorem wp_asked {α : Type} {program : RuntimeM ε α} {c : UserCall}
    (hcall : ∀ m, Process.user c m = (program >>= fun _ => pure ()) m)
    (hrandom : ∀ draft other now, c = .compose draft other now → other = random)
    (hsession : ∀ m, wp program (fun _ m' => m'.memory =
      { m.memory with session := m'.memory.session }) (fun _ => True) m)
    (m : Machine (App ε) Legacy) :
    wp (App.onProcess program) (fun _ m' => Asked random m m')
      (fun legacy => AsUser random (inProcess m) (.crashed legacy)) m := by
  have hframe := hsession (inProcess m)
  have hsame := hcall (inProcess m)
  rw [App.onProcess, wp_zoom]
  show wp program _ _ (inProcess m)
  unfold wp at hframe ⊢
  rcases hrun : program (inProcess m) with ⟨value, m'⟩ | legacy <;> rw [hrun] at hframe
  -- the program and the call run alike and differ only in what they return
  · refine ⟨?_, .inr ⟨c, ?_, hrandom⟩⟩
    · dsimp only at hframe ⊢
      rw [hframe]
      rfl
    · rw [hsame]
      simp only [bind, hrun]
      rfl
  · refine .inr ⟨c, ?_, hrandom⟩
    rw [hsame]
    simp only [bind, hrun]

theorem user_compose (draft : PostDraft) (m : Machine (Process ε) Legacy) :
    Process.user (.compose draft random now) m =
      (Process.compose draft random now >>= fun _ => pure ()) m := by
  simp only [Process.user, Process.compose, UserCall.call, Session.call, Process.onSession,
    Prog.within, bind]
  rcases Session.compose draft random now
    ⟨m.memory.session, m.durable.disk, m.faults⟩ with ⟨result, m'⟩ | disk
  · rfl
  · rfl

/-- A call that composes nothing. -/
theorem user_preference {c : UserCall} {program : SessionM Bool}
    (hcall : Session.call c.call = do pure (.flag (← program))) (hc : c.Settles)
    (m : Machine (Process ε) Legacy) :
    Process.user c m = (Process.onSession program >>= fun _ => pure ()) m := by
  simp only [Process.user, hcall, hc.composedPosts, List.append_nil, Process.onSession,
    Prog.within, bind]
  rcases program ⟨m.memory.session, m.durable.disk, m.faults⟩ with ⟨saved, m'⟩ | disk
  · rfl
  · rfl

theorem wp_onSession_frame {α : Type} (program : SessionM α) (m : Machine (Process ε) Legacy) :
    wp (Process.onSession program) (fun _ m' => m'.memory =
      { m.memory with session := m'.memory.session }) (fun _ => True) m := by
  rw [Process.onSession, wp_within]
  exact wp_true fun _ _ => rfl

/-- What becomes of a draft. -/
theorem wp_port_compose (draft : PostDraft) (m : Machine (App ε) Legacy) :
    wp ((App.port random now).compose draft) (fun result m' => Asked random m m' ∧
      ∃ first second,
        let next := (MessengerState.compose (StateCommit.port (some (.answering first second)))
          draft random now).run m.memory.process.session.messenger.world
        (next.1, next.2.messenger) = (result, m'.memory.process.session.messenger))
      (fun legacy => AsUser random (inProcess m) (.crashed legacy)) m := by
  have hasked : wp ((App.port random now).compose draft) (fun _ m' => Asked random m m')
      (fun legacy => AsUser random (inProcess m) (.crashed legacy)) m := by
    refine wp_asked (user_compose draft) ?_ (fun m => ?_) m
    · rintro _ _ _ ⟨⟩
      rfl
    · rw [Process.compose, wp_bind]
      exact wp_onSession_frame _ m
  have hanswering : wp ((App.port random now).compose draft) (fun result m' =>
      ∃ first second,
        let next := (MessengerState.compose (StateCommit.port (some (.answering first second)))
          draft random now).run m.memory.process.session.messenger.world
        (next.1, next.2.messenger) = (result, m'.memory.process.session.messenger))
      (fun _ => True) m := by
    show wp (App.onProcess (Process.compose draft random now)) _ _ m
    rw [App.onProcess, wp_zoom, Process.compose, wp_bind, Process.onSession, wp_within]
    exact wp_compose_answering draft random now _
  -- composing is a call of the user, and what the storage says is an answer of the model
  exact wp_mono (wp_and hasked hanswering) (fun _ _ h => h) (fun _ h => h.1)

theorem wp_port_preference {c : UserCall} {program : SessionM Bool}
    (hcall : Session.call c.call = do pure (.flag (← program))) (hc : c.Settles)
    (hcalm : Session.Calm program) (m : Machine (App ε) Legacy) :
    wp (App.onProcess (Process.onSession program)) (fun _ m' => Asked random m m' ∧
      m'.memory.process.session.messenger = m.memory.process.session.messenger)
      (fun legacy => AsUser random (inProcess m) (.crashed legacy)) m := by
  have hasked : wp (App.onProcess (Process.onSession program)) (fun _ m' => Asked random m m')
      (fun legacy => AsUser random (inProcess m) (.crashed legacy)) m :=
    wp_asked (user_preference hcall hc) (fun draft other now h => absurd h (hc draft other now))
      (wp_onSession_frame program) m
  have hsame : wp (App.onProcess (Process.onSession program)) (fun _ m' =>
      m'.memory.process.session.messenger = m.memory.process.session.messenger)
      (fun _ => True) m := by
    rw [App.onProcess, wp_zoom, Process.onSession, wp_within]
    exact hcalm _
  exact wp_mono (wp_and hasked hsame) (fun _ _ h => h) (fun _ h => h.1)

/-! ### A key -/

/-- The application asks the session at most once, and the view and the messenger are those
of the view model with some answers. -/
structure Handled (random : Option (Vector UInt8 16))
    (model : StateCommit Unit → UiEnvironment → UiAction × Ui Unit) (m : Machine (App ε) Legacy)
    (result : UiAction × ViewModel) (m' : Machine (App ε) Legacy) : Prop where
  asked : Asked random m m'
  modelled : ∃ commit environment,
    (model commit environment).1 = result.1 ∧ (model commit environment).2.view = result.2 ∧
      (model commit environment).2.world.messenger = m'.memory.process.session.messenger

/-- Nothing has been asked. -/
theorem Handled.unasked {model : StateCommit Unit → UiEnvironment → UiAction × Ui Unit}
    {m : Machine (App ε) Legacy} {result : UiAction × ViewModel}
    (h : ∀ commit environment, model commit environment =
      (result.1, ⟨result.2, m.memory.process.session.messenger.world⟩)) :
    Handled random model m result m := by
  refine ⟨.refl m, .answering true true, {}, ?_⟩
  rw [h]
  exact ⟨rfl, rfl, rfl⟩

theorem wp_port_messenger {post : Messenger → Machine (App ε) Legacy → Prop}
    {crash : Legacy → Prop} {m : Machine (App ε) Legacy} :
    wp (App.port random now).messenger post crash m ↔
      post m.memory.process.session.messenger m := Iff.rfl

/-- The key that sends the draft. -/
theorem Ui.handleCompose_enter {σ : Type} {commit : Option (StateCommit σ)}
    {environment : UiEnvironment} {event : KeyEvent} (hkey : event.key = .enter) (ui : Ui σ) :
    ui.handleCompose commit environment event =
      (.render, ⟨
        if (ui.compose commit environment).1.error ≠ .none then
          ui.view.showCommandError (ui.compose commit environment).1.error
        else ui.view.composed (ui.compose commit environment).2.messenger
          (ui.compose commit environment).1.messageId,
        (ui.compose commit environment).2⟩) := by
  rw [handleCompose, if_pos hkey]
  dsimp only
  split <;> rfl

variable (event : KeyEvent) (view : ViewModel) (m : Machine (App ε) Legacy)

theorem wp_handleCompose : wp ((App.port random now).handleCompose event view)
    (Handled random (fun commit environment => Ui.handleCompose (some commit) environment event
      ⟨view, m.memory.process.session.messenger.world⟩) m)
    (fun legacy => AsUser random (inProcess m) (.crashed legacy)) m := by
  rw [UiPort.handleCompose]
  split
  · rename_i hkey
    rw [wp_bind]
    refine wp_mono (wp_port_compose view.draft.post m) ?_ (fun _ h => h)
    rintro result m' ⟨hasked, first, second, hnext⟩
    obtain ⟨hresult, hmessenger⟩ := Prod.mk.inj hnext
    have hcompose : Ui.compose (some (.answering first second)) { random := random, now := now }
        ⟨view, m.memory.process.session.messenger.world⟩ =
          (MessengerState.compose (StateCommit.port (some (.answering first second)))
            view.draft.post random now).run m.memory.process.session.messenger.world := rfl
    rw [wp_bind, wp_port_messenger]
    have hmodel := @Ui.handleCompose_enter Unit (some (.answering first second))
      { random := random, now := now } event hkey
        ⟨view, m.memory.process.session.messenger.world⟩
    rw [hcompose, hresult, hmessenger] at hmodel
    split
    · rename_i herror
      refine ⟨hasked, .answering first second, { random := random, now := now }, ?_⟩
      rw [hmodel, if_pos herror]
      exact ⟨rfl, rfl, hmessenger⟩
    · rename_i herror
      refine ⟨hasked, .answering first second, { random := random, now := now }, ?_⟩
      rw [hmodel, if_neg herror]
      exact ⟨rfl, rfl, hmessenger⟩
  · rename_i hkey
    rw [wp_bind, wp_port_messenger]
    refine .unasked fun commit environment => ?_
    rw [Ui.handleCompose, if_neg hkey]
    rfl

/-- The surroundings of a key that saves a setting. -/
def UiEnvironment.saving (saved : Bool) : UiEnvironment where
  settingsCommit := some ⟨fun _ => saved, fun _ => saved⟩

theorem wp_changeSetting (hshortcut : isShortcut event 'd' = false) (hescape : event.key ≠ .escape)
    (hmove : ¬(event.key = .up ∨ event.key = .down)) :
    wp ((App.port random now).changeSetting event view) (fun result m' =>
      Asked random m m' ∧
      m'.memory.process.session.messenger = m.memory.process.session.messenger ∧
      ∃ saved,
        view.handleSettings m.memory.process.session.messenger (.saving saved) event = result)
    (fun legacy => AsUser random (inProcess m) (.crashed legacy)) m := by
  have hsettings (saved : Bool) : view.handleSettings m.memory.process.session.messenger
      (.saving saved) event =
      if view.settingsItem = .skipTitle ∧
        (event.key = .left ∨ event.key = .right ∨ event.key = .enter) then
        view.adopt saved { view with skipTitle := !view.skipTitle }
      else if view.settingsItem = .language ∧ event.key = .left then
        view.adopt saved
          { view with locale := view.locale.shift (Locale.kSupportedLocales.length - 1) }
      else if view.settingsItem = .language ∧ (event.key = .right ∨ event.key = .enter) then
        view.adopt saved { view with locale := view.locale.shift 1 }
      else ({}, view) := by
    rw [ViewModel.handleSettings, if_neg (Bool.eq_false_iff.mp hshortcut), if_neg hescape,
      if_neg hmove]
    rfl
  -- past the keys that move or leave, both handlers test the same keys in the same order
  simp only [hsettings]
  rw [UiPort.changeSetting]
  split
  · rw [wp_bind]
    refine wp_mono (wp_port_preference (c := .setSkipTitle !view.skipTitle) rfl (by rintro _ _ _ ⟨⟩)
      (Session.calm_setPreference _ _) m) (fun saved m' h => ?_) (fun _ h => h)
    exact ⟨h.1, h.2, saved, rfl⟩
  split
  · rw [wp_bind]
    refine wp_mono (wp_port_preference (c := .setLocale _) rfl (by rintro _ _ _ ⟨⟩)
      (Session.calm_setPreference _ _) m) (fun saved m' h => ?_) (fun _ h => h)
    exact ⟨h.1, h.2, saved, rfl⟩
  split
  · rw [wp_bind]
    refine wp_mono (wp_port_preference (c := .setLocale _) rfl (by rintro _ _ _ ⟨⟩)
      (Session.calm_setPreference _ _) m) (fun saved m' h => ?_) (fun _ h => h)
    exact ⟨h.1, h.2, saved, rfl⟩
  · exact ⟨.refl m, rfl, true, rfl⟩

theorem wp_handleSettings : wp ((App.port random now).handleSettings event view) (fun result m' =>
      Asked random m m' ∧
      m'.memory.process.session.messenger = m.memory.process.session.messenger ∧
      ∃ saved,
        view.handleSettings m.memory.process.session.messenger (.saving saved) event = result)
    (fun legacy => AsUser random (inProcess m) (.crashed legacy)) m := by
  rw [UiPort.handleSettings]
  split
  · rename_i hshortcut
    refine ⟨.refl m, rfl, true, ?_⟩
    rw [ViewModel.handleSettings, if_pos hshortcut]
  rename_i hshortcut
  split
  · rename_i hescape
    rw [wp_bind, wp_port_messenger]
    refine ⟨.refl m, rfl, true, ?_⟩
    rw [ViewModel.handleSettings, if_neg hshortcut, if_pos hescape]
  rename_i hescape
  split
  · rename_i hmove
    refine ⟨.refl m, rfl, true, ?_⟩
    rw [ViewModel.handleSettings, if_neg hshortcut, if_neg hescape, if_pos hmove]
  · rename_i hmove
    exact wp_changeSetting event view m (Bool.eq_false_iff.mpr hshortcut) hescape hmove

theorem wp_handleScreen : wp ((App.port random now).handleScreen event view)
    (Handled random (fun commit environment => Ui.handleScreen (some commit) environment event
      ⟨view, m.memory.process.session.messenger.world⟩) m)
    (fun legacy => AsUser random (inProcess m) (.crashed legacy)) m := by
  rw [UiPort.handleScreen, wp_bind, wp_port_messenger]
  simp only [Ui.handleScreen]
  cases hscreen : view.screen with
  | compose => exact wp_handleCompose event view m
  | settings =>
    refine wp_mono (wp_handleSettings event view m) ?_ (fun _ h => h)
    rintro result m' ⟨hasked, hmessenger, saved, hresult⟩
    refine ⟨hasked, .answering true true, .saving saved, ?_⟩
    dsimp only [Messenger.world]
    rw [hresult]
    exact ⟨rfl, rfl, hmessenger.symm⟩
  -- the other screens ask the session for nothing
  | _ => exact .unasked fun _ _ => rfl

/-- **A key of the application** is a key of the view model. -/
theorem wp_handle : wp ((App.port random now).handle event view)
    (Handled random (fun commit environment => Ui.handle (some commit) environment event
      ⟨view, m.memory.process.session.messenger.world⟩) m)
    (fun legacy => AsUser random (inProcess m) (.crashed legacy)) m := by
  rw [UiPort.handle, wp_bind, wp_port_messenger]
  dsimp only
  split
  · rename_i hmodal
    refine .unasked fun commit environment => ?_
    rw [Ui.handle]
    exact (if_pos hmodal).trans rfl
  rename_i hmodal
  split
  · rename_i hhome
    refine .unasked fun commit environment => ?_
    rw [Ui.handle]
    exact (if_neg hmodal).trans (if_pos hhome)
  rename_i hhome
  split
  · rename_i hshortcut
    refine .unasked fun commit environment => ?_
    rw [Ui.handle]
    exact (if_neg hmodal).trans ((if_neg hhome).trans (if_pos hshortcut))
  · rename_i hshortcut
    have hmodel (commit : StateCommit Unit) (environment : UiEnvironment) :
        Ui.handle (some commit) environment event
          ⟨view, m.memory.process.session.messenger.world⟩ =
        Ui.handleScreen (some commit) environment event
          ⟨((view.reconcileModel m.memory.process.session.messenger).handleGlobalShortcut
            m.memory.process.session.messenger event).2,
              m.memory.process.session.messenger.world⟩ := by
      rw [Ui.handle]
      exact (if_neg hmodal).trans ((if_neg hhome).trans (if_neg hshortcut))
    simp only [hmodel]
    exact wp_handleScreen event _ m

end Port

/-! ### What a pump tells -/

section Pump

variable {ε : Type}

/-- A transition that fails leaves the messenger as it was. -/
theorem wp_transition_reported (messageId : MessageId) (target : LocalDeliveryState)
    (m : Machine Session Disk) :
    wp (Session.transition messageId target) (fun result m' => result.error = .none ∨
      m'.memory.messenger = m.memory.messenger) (fun _ => True) m := by
  rw [Session.transition, wp_bind, wp_memory]
  split
  · exact .inr rfl
  split
  · exact .inr rfl
  -- only what has been saved reaches the messenger
  rw [wp_bind]
  refine wp_mono (Session.calm_persistTimeline _ m) (fun saved m₁ hsame => ?_) (fun _ h => h)
  split
  · exact .inl rfl
  · exact .inr hsame

theorem wp_acceptReceived_reported (post : PostPayload) (m : Machine Session Disk) :
    wp (Session.acceptReceived post) (fun result m' => result.error = .none ∨
      m'.memory.messenger = m.memory.messenger) (fun _ => True) m := by
  rw [Session.acceptReceived, wp_bind, wp_memory]
  split
  · exact .inr rfl
  split
  · exact .inr rfl
  -- likewise for a post that comes in
  rw [wp_bind]
  refine wp_mono (Session.calm_persistTimeline _ m) (fun saved m₁ hsame => ?_) (fun _ h => h)
  split
  · exact .inl rfl
  · exact .inr hsame

theorem wp_acceptReceivedPost_reported (canonicalPost : Bytes) (m : Machine Session Disk) :
    wp (Session.acceptReceivedPost canonicalPost) (fun status m' => status = .accepted ∨
      m'.memory.messenger = m.memory.messenger) (fun _ => True) m := by
  rw [Session.acceptReceivedPost, wp_bind, wp_memory]
  split
  · exact .inr rfl
  split
  · exact .inr rfl
  split
  · exact .inr rfl
  split
  · exact .inr rfl
  · exact .inr rfl
  · exact .inr rfl
  · rw [wp_bind]
    refine wp_mono (wp_acceptReceived_reported _ m) (fun result m₁ h => ?_) (fun _ h => h)
    rw [wp_pure]
    exact h.imp_left fun herror => by rw [herror, Session.mapInbound]

/-- The messenger of the process, which the screen shows. -/
def Process.messenger (process : Process ε) : Messenger := process.session.messenger

namespace Process

theorem keeps_setRuntime (change : RadioRuntime → RadioRuntime) :
    Keeps Process.messenger (setRuntime change : RuntimeM ε Unit) := .update fun _ => rfl

theorem keeps_note (change : Legacy → Legacy) :
    Keeps Process.messenger (Prog.note change : RuntimeM ε Unit) := fun _ => rfl

theorem keeps_setRadio (state : ε) : Keeps Process.messenger (setRadio state) :=
  .update fun _ => rfl

theorem keeps_setScheduler (scheduler : Tracked) :
    Keeps Process.messenger (setScheduler scheduler : RuntimeM ε Unit) :=
  .bind (keeps_setRuntime _) fun _ => keeps_note _

end Process

namespace RadioRuntime

open Process

variable (radio : Radio ε) (now : ℕ)

theorem reports_mark (event : OutboundEvent) :
    Reports Process.messenger (mark event : RuntimeM ε Bool) := by
  intro m
  rw [mark, wp_bind, Process.onSession, wp_within, deliver_eq]
  refine wp_mono (wp_transition_reported _ _ _) (fun result m₁ h => ?_) (fun _ h => h)
  split
  · rw [wp_bind, Process.count, Process.setRuntime, wp_update, wp_bind, wp_note]
    exact .inl rfl
  · rename_i herror
    exact .inr (h.resolve_left herror)

theorem reports_enqueueEntries (entries : List TimelineEntry) :
    Reports Process.messenger (enqueueEntries radio now entries) := by
  induction entries with
  | nil => exact .of_keeps (.pure _)
  | cons entry rest ih =>
    rw [enqueueEntries]
    split
    · exact ih
    have henqueue : Keeps Process.messenger (enqueue radio entry.post now) :=
      .bind .memory fun _ => .bind (keeps_setScheduler _) fun _ =>
        .bind (keeps_setRadio _) fun _ => .pure _
    have hmark : Reports Process.messenger (do
        if ← mark ⟨entry.post.messageId, .failed⟩ then pure true
        else enqueueEntries radio now rest) := by
      intro m
      rw [wp_bind]
      refine wp_mono (reports_mark _ m) (fun marked m₁ h => ?_) (fun _ h => h)
      split
      · exact .inl rfl
      · rename_i hmarked
        have hsame := h.resolve_left hmarked
        exact wp_mono (ih m₁) (fun _ _ hlater => hlater.imp_right fun h => h.trans hsame)
          (fun _ h => h)
    refine .bind henqueue fun error => ?_
    cases error with
    | none | duplicateMessage | queueFull => exact ih
    | invalidMtu | invalidPost | randomUnavailable => exact hmark

theorem reports_pumpOutbound : Reports Process.messenger (pumpOutbound radio now) := by
  refine .bind (.bind .memory fun _ => .bind (keeps_setScheduler _) fun _ =>
    .bind (keeps_setRadio _) fun _ => .pure _) fun event => ?_
  split
  · exact .of_keeps (.pure _)
  · exact reports_mark _

theorem keeps_receiveDatagrams (work : ℕ) :
    Keeps Process.messenger (receiveDatagrams radio now work) := by
  induction work with
  | zero => exact .pure _
  | succ work ih =>
    rw [receiveDatagrams]
    refine .bind .memory fun process => .bind (keeps_setRadio _) fun _ => ?_
    split
    · exact .pure _
    · exact .bind (keeps_setRuntime _) fun _ => .bind (keeps_setRuntime _) fun _ => ih

theorem reports_acceptCompleted (completed : CompletedPost) :
    Reports Process.messenger (acceptCompleted completed now : RuntimeM ε Bool) := by
  intro m
  have hcounts (status : InboundPostStatus) (m : Machine (Process ε) Legacy) :
      wp (countCompleted completed now status) (fun changed m' =>
        (status = .accepted → changed = true) ∧
          m'.memory.messenger = m.memory.messenger) (fun _ => True) m := by
    cases status with
    | accepted => exact ⟨fun _ => rfl, rfl⟩
    | duplicate => exact ⟨(by rintro ⟨⟩), rfl⟩
    | _ => exact ⟨(by rintro ⟨⟩), rfl⟩
  unfold acceptCompleted
  rw [wp_bind, Process.onSession, wp_within]
  refine wp_mono (wp_acceptReceivedPost_reported _ _) (fun status m₁ h => ?_) (fun _ h => h)
  refine wp_mono (hcounts status _) (fun changed m₂ hcounted => ?_) (fun _ h => h)
  rcases h with haccepted | hsame
  · exact .inl (hcounted.1 haccepted)
  · exact .inr (hcounted.2.trans hsame)

theorem reports_processDatagrams (work : ℕ) :
    Reports Process.messenger (processDatagrams now work : RuntimeM ε Bool) := by
  induction work with
  | zero => exact .of_keeps (.pure _)
  | succ work ih =>
    rw [processDatagrams]
    refine .bind .memory fun process => ?_
    rcases process.runtime.inbound.processNext now with ⟨inbound, processed⟩
    refine .bind (keeps_setRuntime _) fun _ => ?_
    split
    · exact .of_keeps (.pure _)
    split
    · exact ih
    split
    · exact ih
    · exact .or (reports_acceptCompleted now _) ih

/-- **A pump that changes the messenger says so.** -/
theorem reports_pump : Reports Process.messenger (pump radio now) := by
  refine .bind .memory fun process => ?_
  split
  · exact .of_keeps (.pure _)
  split
  · exact .of_keeps (.pure _)
  have hinbound : Reports Process.messenger (pumpInbound radio now) :=
    .bind (keeps_receiveDatagrams radio now _) fun _ => reports_processDatagrams now _
  have henqueue : Reports Process.messenger (enqueueQueuedPosts radio now) :=
    .bind .memory fun process => reports_enqueueEntries radio now _
  intro m
  rw [wp_bind]
  refine wp_mono (henqueue m) (fun enqueued m₁ hfirst => ?_) (fun _ h => h)
  rw [wp_bind]
  refine wp_mono (reports_pumpOutbound radio now m₁) (fun outbound m₂ hsecond => ?_) (fun _ h => h)
  rw [wp_bind]
  refine wp_mono (hinbound m₂) (fun inbound m₃ hthird => ?_) (fun _ h => h)
  rw [wp_pure]
  rcases hfirst with rfl | hfirst
  · exact .inl rfl
  rcases hsecond with rfl | hsecond
  · exact .inl (by rw [Bool.or_true, Bool.true_or])
  rcases hthird with rfl | hthird
  · exact .inl (Bool.or_true _)
  · exact .inr (hthird.trans (hsecond.trans hfirst))

end RadioRuntime

end Pump

end Lora
