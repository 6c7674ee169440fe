/-
The application as a station.

As long as nobody chooses to erase everything, the application does to its process what a user,
a radio and the end of a process do to the process of a station.  So what holds of stations
holds of the application, and of what it shows.

* `Does`, `Still` — what a program of the application does to the process;
* `run_isStation` — the application with an open transport is a station;
* `shown_broadcast_was_sent` — a post that the screen shows as broadcast was sent.
-/
import LoraMessenger.AppGuards

namespace Lora

open Crash

/-! ### Stations -/

section Station

variable {ε : Type}

/-- The radio of a station changes as a program of its process can change it. -/
theorem Station.tuned_perform {α : Type} (station : Station ε) (state : ε)
    (program : RuntimeM ε α) (faults : List Fault) :
    (station.tuned state).perform program faults =
      station.perform (do Process.setRadio state; program) faults := by
  obtain ⟨legacy, process, past⟩ := station
  cases process with
  | none => rfl
  | some process => rfl

theorem Station.past_perform {α : Type} (station : Station ε) (program : RuntimeM ε α)
    (faults : List Fault) : (station.perform program faults).past = station.past := by
  rw [Station.perform]
  split
  · rfl
  split
  · rfl
  · rfl

end Station

/-! ### Programs of the application -/

section App

variable {ε : Type} {α β γ δ : Type}

namespace App

variable {texts : Texts} {radio : Radio ε} {m : Machine (App ε) Legacy}

/-- The program does to the process what the other one does, and keeps the transport. -/
def Does (program : AppM ε α) (inner : RuntimeM ε β) (m : Machine (App ε) Legacy) : Prop :=
  wp program
    (fun _ m' => m'.memory.attached = m.memory.attached ∧
      ∃ value, inner (inProcess m) = .done value (inProcess m'))
    (fun legacy => inner (inProcess m) = .crashed legacy) m

theorem does_onProcess (program : RuntimeM ε α) (m : Machine (App ε) Legacy) :
    Does (onProcess program) program m := by
  rw [Does, onProcess, wp_zoom]
  show wp program _ _ (inProcess m)
  unfold wp
  rcases hrun : program (inProcess m) with ⟨value, m'⟩ | legacy
  · exact ⟨rfl, value, rfl⟩
  · rfl

theorem Does.bind {program : AppM ε α} {next : α → AppM ε β} {inner : RuntimeM ε γ}
    {inner' : RuntimeM ε δ} (h : Does program inner m)
    (hnext : ∀ value m', m'.memory.attached = m.memory.attached → Does (next value) inner' m') :
    Does (program >>= next) (do let _ ← inner; inner') m := by
  rw [Does, wp_bind]
  refine wp_mono h ?_ ?_
  · rintro value m₁ ⟨hattached, first, hfirst⟩
    refine wp_mono (hnext value m₁ hattached) ?_ ?_
    · rintro _ m₂ ⟨hattached', last, hlast⟩
      refine ⟨hattached'.trans hattached, last, ?_⟩
      simp only [Bind.bind, hfirst, hlast]
    · intro legacy hcrashed
      simp only [Bind.bind, hfirst, hcrashed]
  · intro legacy hcrashed
    simp only [Bind.bind, hcrashed]

theorem Does.still {program : AppM ε α} {next : α → AppM ε β} {inner : RuntimeM ε γ}
    (h : Does program inner m) (hnext : ∀ value m', Still (next value) m') :
    Does (program >>= next) inner m := by
  rw [Does, wp_bind]
  refine wp_mono h ?_ (fun _ h => h)
  rintro value m₁ ⟨hattached, result, hresult⟩
  refine wp_mono (hnext value m₁) ?_ (fun _ h => h.elim)
  rintro _ m₂ ⟨hsame, hattached'⟩
  exact ⟨hattached'.trans hattached, result, by rw [hresult, hsame]⟩

theorem Still.does {program : AppM ε α} {next : α → AppM ε β} {inner : RuntimeM ε γ}
    (h : Still program m)
    (hnext : ∀ value m', m'.memory.attached = m.memory.attached → Does (next value) inner m') :
    Does (program >>= next) inner m := by
  rw [Does, wp_bind]
  refine wp_mono h ?_ (fun _ h => h.elim)
  rintro value m₁ ⟨hsame, hattached⟩
  have hdoes := hnext value m₁ hattached
  rw [Does, hsame, hattached] at hdoes
  exact hdoes

theorem does_turn (hattached : m.memory.attached = true) (now : ℕ) (rendered scriptFailed : Bool) :
    Does (turn texts radio now rendered scriptFailed) (RadioRuntime.pump radio now) m := by
  have hpump : Does (pumpRadio texts radio now rendered) (RadioRuntime.pump radio now) m := by
    rw [Does, pumpRadio, wp_bind, wp_memory, if_pos hattached]
    exact (does_onProcess _ m).still fun changed m' => still_report texts radio changed rendered m'
  exact hpump.still fun _ m' => still_update (kept_endTurn scriptFailed) m'

theorem does_finish (hattached : m.memory.attached = true) (scriptPending : Bool) :
    Does (finish radio scriptPending) (Process.shutdown radio) m := by
  refine (still_update (kept_pending scriptPending) m).does fun _ m₁ hsame => ?_
  have hstop : Does (stopRadio radio) (RadioRuntime.stop radio) m₁ := by
    rw [Does, stopRadio, wp_bind, wp_memory, if_pos (hsame.trans hattached)]
    exact does_onProcess _ m₁
  exact hstop.bind fun _ m₂ _ => does_onProcess _ m₂

/-- A program that asks as a user does is still, or it is one call of the user. -/
theorem asUser_cases {program : AppM ε Unit} {random : Option (Vector UInt8 16)}
    (h : wp program (fun _ m' => m'.memory.attached = m.memory.attached ∧
        AsUser random (inProcess m) (.done () (inProcess m')))
      (fun legacy => AsUser random (inProcess m) (.crashed legacy)) m) :
    Still program m ∨ ∃ c : UserCall, Does program (Process.user c) m ∧
      ∀ draft other now, c = .compose draft other now → other = random := by
  unfold Still Does wp at *
  rcases hrun : program m with ⟨_, m'⟩ | legacy <;> rw [hrun] at h
  · obtain ⟨hattached, hsame | ⟨c, hcall, hrandom⟩⟩ := h
    · injection hsame with _ hsame
      exact .inl ⟨hsame, hattached⟩
    · exact .inr ⟨c, ⟨hattached, (), hcall⟩, hrandom⟩
  · rcases h with hsame | ⟨c, hcall, hrandom⟩
    · cases hsame
    · exact .inr ⟨c, hcall, hrandom⟩

end App

/-- The message id that an event draws. -/
def AppEvent.drawn : AppEvent ε → Option MessageId
  | .key _ random _ _ _ => (MessageId.generate random).toOption
  | _ => none

namespace AppWorld

variable {texts : Texts} {radio : Radio ε} {disk : Disk} {start : AppStart ε}
  {world : AppWorld ε} {station : Station ε} {event : AppEvent ε} {events : List (AppEvent ε)}

/-- The station has the process of an application with an open transport, and what it leaves
behind.  Nothing was composed before it. -/
structure IsStation (world : AppWorld ε) (station : Station ε) : Prop where
  legacy : world.legacy = station.legacy
  process : world.app.map App.process = station.process
  attached : ∀ app, world.app = some app → app.attached = true
  past : ∀ record ∈ station.past, record.composed = []

namespace IsStation

variable {app : App ε} {program : AppM ε Unit} {faults : List Fault}

theorem perform (h : world.IsStation station) (happ : world.app = some app) {inner : RuntimeM ε β}
    (hdoes : App.Does program inner ⟨app, world.legacy, faults⟩) :
    (world.perform program faults).IsStation (station.perform inner faults) := by
  have hprocess : station.process = some app.process := by
    rw [← h.process, happ]
    rfl
  have hpast : ∀ record ∈ (station.perform inner faults).past, record.composed = [] := by
    rw [Station.past_perform]
    exact h.past
  -- both return, or both crash
  rcases perform_wp happ hdoes with ⟨m', hperform, hattached, value, hinner⟩ |
    ⟨legacy, hperform, hinner⟩ <;> rw [hperform]
  · change inner ⟨app.process, world.legacy, faults⟩ = _ at hinner
    have hstation : station.perform inner faults =
        { station with legacy := m'.durable, process := some m'.memory.process } := by
      rw [Station.perform, hprocess]
      dsimp only
      rw [← h.legacy, hinner]
      rfl
    rw [hstation] at hpast ⊢
    refine ⟨rfl, rfl, ?_, hpast⟩
    intro after hafter
    cases hafter
    exact hattached.trans (h.attached app happ)
  · change inner ⟨app.process, world.legacy, faults⟩ = _ at hinner
    have hstation : station.perform inner faults =
        { station with legacy := legacy, process := none } := by
      rw [Station.perform, hprocess]
      dsimp only
      rw [← h.legacy, hinner]
    rw [hstation] at hpast ⊢
    refine ⟨rfl, rfl, ?_, hpast⟩
    intro after hafter
    cases hafter

theorem still (h : world.IsStation station) (happ : world.app = some app)
    (hstill : App.Still program ⟨app, world.legacy, faults⟩) :
    (world.perform program faults).IsStation station := by
  rcases perform_wp happ hstill with ⟨m', hperform, hsame, hattached⟩ | ⟨_, -, hfalse⟩
  swap
  · exact hfalse.elim
  have hprocess : (inProcess m').memory = app.process := by rw [hsame]; rfl
  have hdurable : (inProcess m').durable = world.legacy := by rw [hsame]; rfl
  rw [hperform]
  refine ⟨hdurable.trans h.legacy, ?_, ?_, h.past⟩
  · rw [← h.process, happ]
    exact congrArg some hprocess
  · intro after hafter
    cases hafter
    exact hattached.trans (h.attached app happ)

/-- A program under a condition, after the radio has come to another state. -/
theorem when (h : world.IsStation station) (happ : world.app = some app)
    (condition : App ε → Bool) {state : ε} {inner : RuntimeM ε β} (call : StationEvent ε)
    (hdoes : ∀ m : Machine (App ε) Legacy, m.memory.attached = true → App.Does program inner m)
    (hcall : station.step radio call = (station.tuned state).perform inner faults) :
    ∃ calls : List (StationEvent ε), calls.Sublist [call] ∧
      (world.perform (do
        let app ← Prog.memory
        if condition app then
          App.onProcess (Process.setRadio state)
          program) faults).IsStation (calls.foldl (Station.step radio) station) := by
  by_cases hcondition : condition app = true
  · refine ⟨[call], .refl _, ?_⟩
    rw [List.foldl_cons, List.foldl_nil, hcall, Station.tuned_perform]
    refine h.perform happ ?_
    rw [App.Does, wp_bind, wp_memory, if_pos hcondition]
    exact (App.does_onProcess _ _).bind fun _ m' hsame =>
      hdoes m' (hsame.trans (h.attached app happ))
  · refine ⟨[], List.nil_sublist _, h.still happ ?_⟩
    rw [App.Still, wp_bind, wp_memory, if_neg hcondition]
    exact ⟨rfl, rfl⟩

end IsStation

variable (texts radio) in
/-- One event of the application is one event of the station, or none. -/
theorem IsStation.step (h : world.IsStation station) (hkeep : ¬Given Erases world event) :
    ∃ calls : List (StationEvent ε),
      (calls.filterMap StationEvent.drawn).Sublist ([event].filterMap AppEvent.drawn) ∧
      (world.step texts radio event).IsStation (calls.foldl (Station.step radio) station) := by
  rcases happ : world.app with _ | app
  · -- after a crash nothing happens
    have hsame : world.step texts radio event = world := by
      cases event with
      | _ => rw [AppWorld.step, AppWorld.perform, happ]
    rw [hsame]
    exact ⟨[], List.nil_sublist _, h⟩
  cases event with
  | key key random now rendered faults =>
    -- a key is at most one call of the user, with the random bytes of the key
    have hasked := App.wp_handleKey_asUser texts (m := ⟨app, world.legacy, faults⟩) key random now
      rendered fun hrunning herases =>
        hkeep ⟨app, key, random, now, rendered, faults, happ, hrunning, rfl, herases⟩
    rcases App.asUser_cases hasked with hstill | ⟨c, hdoes, hrandom⟩
    · exact ⟨[], List.nil_sublist _, h.still happ hstill⟩
    refine ⟨[.user c faults], ?_, h.perform happ hdoes⟩
    cases c with
    | compose draft other now' =>
      rw [hrandom draft other now' rfl]
      exact .refl _
    | _ => exact List.nil_sublist _
  | displayDeleted =>
    refine ⟨[], List.nil_sublist _, h.still happ (App.still_update ?_ _)⟩
    exact fun _ => ⟨rfl, rfl⟩
  | turn now state rendered scriptFailed faults =>
    obtain ⟨calls, hcalls, hstation⟩ := h.when happ App.looping (.pump now state faults)
      (fun m hattached => App.does_turn hattached now rendered scriptFailed) rfl
    exact ⟨calls, hcalls.filterMap _, hstation⟩
  | finish state scriptPending =>
    obtain ⟨calls, hcalls, hstation⟩ := h.when happ (fun app => !app.looping) (.shutdown state)
      (fun m hattached => App.does_finish hattached scriptPending) rfl
    exact ⟨calls, hcalls.filterMap _, hstation⟩

theorem start_isStation (hlink : ∀ app, (AppWorld.start texts radio disk start).app = some app →
      app.attached = true) :
    (AppWorld.start texts radio disk start).IsStation (Station.run radio disk
      [.start start.environment start.random start.radio start.faults]) := by
  rw [AppWorld.start] at hlink ⊢
  rw [Station.run, List.foldl_cons, List.foldl_nil, Station.step, Station.start]
  dsimp only
  -- the only record before is the one of a station without a process
  have hpast : ∀ record ∈ (⟨⟨disk, {}⟩, none, []⟩ : Station ε).records, record.composed = [] := by
    intro record hrecord
    rw [List.mem_singleton.mp hrecord]
  revert hlink
  rcases Session.bootstrap start.environment start.random ⟨{}, disk, start.faults⟩ with
    ⟨_, m⟩ | left
  · exact fun hlink => ⟨rfl, congrArg some (App.process_create ..), hlink, hpast⟩
  · exact fun hlink => ⟨rfl, rfl, hlink, hpast⟩

/-- **The application is a station.**  As long as nobody has chosen to erase everything, a run of
the application with an open transport is a run of a station. -/
theorem run_isStation (hlink : ∀ app, (AppWorld.start texts radio disk start).app = some app →
      app.attached = true) :
    (∃ earlier event later, events = earlier ++ event :: later ∧
      Given Erases (run texts radio disk start earlier) event) ∨
    ∃ calls, (calls.filterMap StationEvent.drawn).Sublist (events.filterMap AppEvent.drawn) ∧
      (run texts radio disk start events).IsStation (Station.run radio disk calls) := by
  induction events using List.reverseRecOn with
  | nil =>
    refine .inr ⟨_, ?_, start_isStation hlink⟩
    exact List.nil_sublist _
  | append_singleton events event ih =>
    rcases ih with ⟨earlier, given, later, rfl, hgiven⟩ | ⟨calls, hdraws, hstation⟩
    · exact .inl ⟨earlier, given, later ++ [event], by simp, hgiven⟩
    by_cases hgiven : Given Erases (run texts radio disk start events) event
    · exact .inl ⟨events, event, [], rfl, hgiven⟩
    obtain ⟨more, hmore, hstation'⟩ := hstation.step texts radio hgiven
    refine .inr ⟨calls ++ more, ?_, ?_⟩
    · rw [List.filterMap_append, List.filterMap_append]
      exact hdraws.append hmore
    · rw [run_concat, Station.run, List.foldl_append]
      exact hstation'

end AppWorld

/-! ### What is shown -/

/-- The screen presents the post with that id under that badge, in the timeline or in detail. -/
def ViewSnapshot.Presents (snapshot : ViewSnapshot) (messageId : MessageId)
    (badge : DeliveryBadge) : Prop :=
  match snapshot.page with
  | .timeline page => ∃ row ∈ page.rows, row.messageId = messageId ∧ row.delivery = badge
  | .detail page => page.messageId = some messageId ∧ page.delivery = badge
  | _ => False

/-- What a snapshot presents is in the timeline. -/
theorem ViewModel.snapshot_presents {texts : Texts} {messenger : Messenger} {view : ViewModel}
    {messageId : MessageId} {badge : DeliveryBadge}
    (h : (view.snapshot texts messenger).1.Presents messageId badge) :
    ∃ entry ∈ messenger.timeline.entries, entry.messageId = messageId ∧
      deliveryBadge entry = badge := by
  have hpage : (view.snapshot texts messenger).1.page =
      (view.prepareSnapshot messenger).pageSnapshot texts messenger := rfl
  rw [ViewSnapshot.Presents, hpage, pageSnapshot] at h
  generalize view.prepareSnapshot messenger = view at h
  -- only two screens show a badge
  cases hscreen : view.screen with
  | timeline =>
    rw [hscreen] at h
    obtain ⟨row, hrow, hid, hbadge⟩ := h
    rw [timelineSnapshot] at hrow
    dsimp only at hrow
    split at hrow
    · cases hrow
    obtain ⟨entry, hentry, rfl⟩ := List.mem_map.mp hrow
    obtain ⟨index, -, hnewest⟩ := List.mem_filterMap.mp hentry
    exact ⟨entry, Timeline.newestAt_mem hnewest, hid, hbadge⟩
  | detail =>
    rw [hscreen] at h
    dsimp only [detailSnapshot] at h
    rcases hentry : view.detailEntry messenger with _ | entry <;> rw [hentry] at h
    · cases h.1
    obtain ⟨id, -, hfind⟩ := Option.bind_eq_some_iff.mp hentry
    exact ⟨entry, (Timeline.mem_of_find hfind).1, Option.some.inj h.1, h.2⟩
  | _ =>
    rw [hscreen] at h
    exact h.elim

theorem deliveryBadge_broadcast {entry : TimelineEntry} (h : deliveryBadge entry = .broadcast) :
    entry.origin = .localDelivery .broadcast := by
  rw [deliveryBadge] at h
  split at h
  · cases h
  · cases h
  · assumption
  · cases h
  · cases h

open AppWorld

/-- **The screen is honest.**  The application runs with an open transport and a session in
service, after any keys, turns of the loop and faults; no id has been drawn twice, and nobody has
chosen to erase everything.  A post that the screen shows as broadcast was broadcast on the disk
before the start, or it was composed in this run, and the link has accepted all its frames, in
order and once, before the broadcast was reported. -/
theorem shown_broadcast_was_sent (texts : Texts) (radio : Radio ε) (disk : Disk)
    (start : AppStart ε) (events : List (AppEvent ε))
    (hlink : ∀ app, (AppWorld.start texts radio disk start).app = some app → app.attached = true)
    (hdraws : (events.filterMap AppEvent.drawn).Nodup) (app : App ε)
    (happ : (run texts radio disk start events).app = some app) (hrunning : app.running = true)
    (hready : app.process.session.status = .ready) (shown : ViewSnapshot)
    (hshown : app.shown = some shown) (messageId : MessageId)
    (hpresents : shown.Presents messageId .broadcast) :
    (∃ earlier event later, events = earlier ++ event :: later ∧
      Given Erases (run texts radio disk start earlier) event) ∨
    (∃ old ∈ disk.entries, old.messageId = messageId ∧ old.origin = .localDelivery .broadcast) ∨
    ∃ post ∈ (run texts radio disk start events).legacy.record.composed,
      post.messageId = messageId ∧ ∃ before serial now after mtu start' frames,
        (run texts radio disk start events).legacy.record.log =
          before ++ .reported serial ⟨messageId, .broadcast⟩ now :: after ∧
        .enqueued serial post mtu start' ∈ before ∧ fragmentPost post mtu = .ok frames ∧
        (acceptedFor serial before).map Prod.fst = frames := by
  refine (run_isStation hlink).imp_right ?_
  rintro ⟨calls, hcalls, hstation⟩
  -- what is shown is the snapshot of the session as it is now
  have hcurrent := (run_upToDate texts radio disk start events app happ).current hrunning
  have hsnapshot : shown = (app.view.snapshot texts app.process.session.messenger).1 :=
    Option.some.inj (hshown.symm.trans hcurrent)
  rw [hsnapshot] at hpresents
  obtain ⟨entry, hentry, rfl, hbadge⟩ := ViewModel.snapshot_presents hpresents
  have horigin := deliveryBadge_broadcast hbadge
  -- which is that of the disk, as the session is in service
  obtain ⟨first, hlawful⟩ := Station.run_lawful radio disk calls
  have hprocess : (Station.run radio disk calls).process = some app.process := by
    rw [← hstation.process, happ]
    rfl
  obtain ⟨v, hshows, hv⟩ := (hlawful.driven _ hprocess).agrees hready
  rw [hshows.timeline] at hentry
  have hstored : entry ∈ (Station.run radio disk calls).legacy.disk.entries := by
    rw [show (Station.run radio disk calls).legacy.disk = v.disk from hv]
    exact hentry
  rw [hstation.legacy]
  rcases hlawful.kept.broadcast entry hstored horigin with
    (⟨old, hold, hpost, hbroadcast⟩ | ⟨record, hrecord, htells⟩) | htells
  · exact .inl ⟨old, hold, congrArg PostPayload.messageId hpost, hbroadcast⟩
  · -- no other process has composed anything
    have hcomposed := htells.1
    rw [hstation.past record hrecord] at hcomposed
    cases hcomposed
  · -- an id stands for one post, since it was drawn for one
    have hids : ((Station.run radio disk calls).legacy.record.composed.map
        PostPayload.messageId).Nodup := by
      have hall := (hdraws.sublist hcalls).sublist hlawful.drawn
      rw [List.map_flatMap] at hall
      exact (List.nodup_flatMap.mp hall).1 _ (List.mem_append_right _ (List.mem_singleton_self _))
    exact .inr ⟨entry.post, htells.1, rfl, hlawful.kept.sound.earned htells hids⟩

/-- The post is sent, and the loop goes on until it has been repeated. -/
def sentHello : List (AppEvent Link) :=
  typedHello ++ [.turn 300 {} true false [], .turn 600 {} true false [], .turn 900 {} true false []]

theorem sentHello_keeps (earlier later : List (AppEvent Link)) (event : AppEvent Link)
    (hsplit : sentHello = earlier ++ event :: later) :
    ¬Given Erases (run Texts.blank Link.radio ⟨.missing, .missing⟩ .linked earlier) event := by
  have hmodals : (List.range 10).all (fun count => (run Texts.blank Link.radio
      ⟨.missing, .missing⟩ .linked (sentHello.take count)).app.all fun app =>
        app.view.activeModal.id ≠ .deleteData && app.view.activeModal.id ≠ .recovery) = true := by
    decide +kernel
  have hcount : earlier.length < 10 := by
    have hlength := congrArg List.length hsplit
    rw [List.length_append, List.length_cons] at hlength
    have hten : sentHello.length = 10 := rfl
    omega
  have hearlier : sentHello.take earlier.length = earlier := by
    rw [hsplit, List.take_left]
  have hmodal := List.all_eq_true.mp hmodals earlier.length (List.mem_range.mpr hcount)
  rw [hearlier] at hmodal
  rintro ⟨app, -, -, -, -, -, happ, -, -, -, hid, -⟩
  rw [happ] at hmodal
  rcases hid with hid | hid
  · simp [hid] at hmodal
  · simp [hid] at hmodal

theorem shown_broadcast_was_sent_sentHello :
    ∃ messageId, ∃ post ∈ (run Texts.blank Link.radio ⟨.missing, .missing⟩ .linked
        sentHello).legacy.record.composed,
      post.messageId = messageId ∧ ∃ before serial now after mtu start' frames,
        (run Texts.blank Link.radio ⟨.missing, .missing⟩ .linked sentHello).legacy.record.log =
          before ++ .reported serial ⟨messageId, .broadcast⟩ now :: after ∧
        .enqueued serial post mtu start' ∈ before ∧ fragmentPost post mtu = .ok frames ∧
        (acceptedFor serial before).map Prod.fst = frames := by
  have hrun : (run Texts.blank Link.radio ⟨.missing, .missing⟩ .linked sentHello).app.any
      (fun app => app.running && app.process.session.status = .ready &&
        app.shown.any fun shown =>
          match shown.page with
          | .timeline page => page.rows.any fun row => row.delivery = .broadcast
          | _ => false) = true := by
    decide +kernel
  have hattached : (AppWorld.start Texts.blank Link.radio ⟨.missing, .missing⟩ .linked).app.all
      App.attached = true := by decide +kernel
  have hlink : ∀ app, (AppWorld.start Texts.blank Link.radio ⟨.missing, .missing⟩ .linked).app =
      some app → app.attached = true := (Option.all_eq_true _ _).mp hattached
  obtain ⟨app, happ, hstate⟩ := (Option.any_eq_true _ _).mp hrun
  simp only [Bool.and_eq_true, decide_eq_true_eq] at hstate
  obtain ⟨⟨hrunning, hready⟩, hshows⟩ := hstate
  obtain ⟨shown, hshown, hrows⟩ := (Option.any_eq_true _ _).mp hshows
  split at hrows
  swap
  · cases hrows
  rename_i page hpage
  obtain ⟨row, hrow, hbadge⟩ := List.any_eq_true.mp hrows
  have hpresents : shown.Presents row.messageId .broadcast := by
    rw [ViewSnapshot.Presents, hpage]
    exact ⟨row, hrow, rfl, of_decide_eq_true hbadge⟩
  refine ⟨row.messageId, ?_⟩
  rcases shown_broadcast_was_sent Texts.blank Link.radio ⟨.missing, .missing⟩ .linked sentHello
    hlink (by decide +kernel) app happ hrunning hready shown hshown row.messageId hpresents with
    ⟨earlier, event, later, hsplit, hgiven⟩ | ⟨old, hold, -⟩ | hsent
  · exact absurd hgiven (sentHello_keeps earlier later event hsplit)
  · cases hold
  · exact hsent

end App

end Lora
