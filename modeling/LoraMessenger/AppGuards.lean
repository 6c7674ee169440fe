/-
What the application does only when it is told to.

The stored data is erased, and the application ends, on a key that the view model has let
through.  Between two such keys posts come in, the link is lost and found, storage fails and
dialogs replace one another; none of it may stand for an answer of the user.

* `Careful` — programs of the process that erase nothing;
* `AppWorld.ConfirmedSince` — a dialog that has been open since Right was pressed in it;
* `app_acts_only_when_told` — what has happened before anything is erased, and before the
  application ends without an error.
-/
import LoraMessenger.AppScreen

namespace Lora

open Crash

/-! ### Programs that erase nothing -/

section Careful

variable {ε : Type} {α β : Type}

/-- Nothing is erased, and the session stays in agreement with the disk. -/
def Careful (program : RuntimeM ε α) : Prop :=
  ∀ m, Agrees m.memory.session m.durable.disk →
    wp program (fun _ m' => Agrees m'.memory.session m'.durable.disk ∧
        Reaches (· ≠ .erase) m.durable.disk m'.durable.disk)
      (fun legacy => Reaches (· ≠ .erase) m.durable.disk legacy.disk) m

namespace Careful

theorem pure (value : α) : Careful (pure value : RuntimeM ε α) := fun _ h => ⟨h, .refl⟩

theorem bind {program : RuntimeM ε β} {next : β → RuntimeM ε α} (h : Careful program)
    (hnext : ∀ value, Careful (next value)) : Careful (program >>= next) := by
  intro m hagrees
  rw [wp_bind]
  refine wp_mono (h m hagrees) ?_ (fun _ h => h)
  rintro value m₁ ⟨hagrees₁, hreach₁⟩
  refine wp_mono (hnext value m₁ hagrees₁) ?_ (fun _ h => hreach₁.trans h)
  rintro _ m₂ ⟨hagrees₂, hreach₂⟩
  exact ⟨hagrees₂, hreach₁.trans hreach₂⟩

theorem memory : Careful (Prog.memory : RuntimeM ε (Process ε)) := fun _ h => ⟨h, .refl⟩

theorem setRuntime (change : RadioRuntime → RadioRuntime) :
    Careful (Process.setRuntime change : RuntimeM ε Unit) := fun _ h => ⟨h, .refl⟩

theorem setRadio (state : ε) : Careful (Process.setRadio state) := fun _ h => ⟨h, .refl⟩

theorem note {change : Legacy → Legacy} (hchange : ∀ legacy, (change legacy).disk = legacy.disk) :
    Careful (Prog.note change : RuntimeM ε Unit) := by
  intro m hagrees
  rw [wp_note]
  dsimp only
  rw [hchange]
  exact ⟨hagrees, .refl⟩

theorem setScheduler (scheduler : Tracked) :
    Careful (Process.setScheduler scheduler : RuntimeM ε Unit) :=
  .bind (setRuntime _) fun _ => note fun _ => rfl

/-- A program of the session with causes of its own. -/
theorem onSession {program : SessionM α} {causes : Cause → Prop} (herase : ¬causes .erase)
    (hwp : ∀ m, Agrees m.memory m.durable →
      wp program (fun _ m' => Settled causes m.durable m') (Reaches causes m.durable) m) :
    Careful (Process.onSession program : RuntimeM ε α) := by
  have hmono : ∀ cause, causes cause → cause ≠ .erase := by
    rintro cause hcause rfl
    exact herase hcause
  intro m hagrees
  rw [Process.onSession, wp_within]
  refine wp_mono (hwp _ hagrees) ?_ (fun _ hreach => hreach.mono hmono)
  rintro _ inner ⟨hreach, hagrees⟩
  exact ⟨hagrees, hreach.mono hmono⟩

theorem call {c : SessionCall} (hc : c ≠ .deleteAll) :
    Careful (Process.onSession (Session.call c) : RuntimeM ε Reply) :=
  onSession (causes_erase hc) fun _ hagrees => wp_call hagrees c

theorem user (c : UserCall) : Careful (Process.user c : RuntimeM ε Unit) := by
  have hc : c.call ≠ .deleteAll := by
    cases c with
    | _ => rintro ⟨⟩
  exact .bind (call hc) fun _ => .bind memory fun _ => note fun _ => rfl

open RadioRuntime

variable (radio : Radio ε) (now : ℕ)

theorem mark (event : OutboundEvent) : Careful (RadioRuntime.mark event : RuntimeM ε Bool) := by
  have hdeliver : Careful (Process.onSession (deliver event) : RuntimeM ε CommandResult) := by
    obtain ⟨messageId, state⟩ := event
    cases state with
    | broadcast =>
      refine onSession (causes_erase (c := .markBroadcast messageId) (by rintro ⟨⟩)) ?_
      intro m hagrees
      have hcall := wp_call hagrees (.markBroadcast messageId)
      rwa [Session.call, wp_bind] at hcall
    | failed =>
      refine onSession (causes_erase (c := .markFailed messageId) (by rintro ⟨⟩)) ?_
      intro m hagrees
      have hcall := wp_call hagrees (.markFailed messageId)
      rwa [Session.call, wp_bind] at hcall
  refine .bind hdeliver fun result => ?_
  split
  · exact .bind (setRuntime _) fun _ => .bind (note fun _ => rfl) fun _ => .pure _
  · exact .pure _

theorem enqueueEntries (entries : List TimelineEntry) :
    Careful (RadioRuntime.enqueueEntries radio now entries) := by
  induction entries with
  | nil => exact .pure _
  | cons entry rest ih =>
    rw [RadioRuntime.enqueueEntries]
    split
    · exact ih
    have henqueue : Careful (RadioRuntime.enqueue radio entry.post now) :=
      .bind memory fun _ => .bind (setScheduler _) fun _ => .bind (setRadio _) fun _ => .pure _
    have hmark : Careful (do
        if ← RadioRuntime.mark ⟨entry.post.messageId, .failed⟩ then Pure.pure true
        else RadioRuntime.enqueueEntries radio now rest) := by
      refine .bind (mark _) fun marked => ?_
      split
      · exact .pure _
      · exact ih
    -- a post that is already on its way or has to wait is not marked
    refine .bind henqueue fun error => ?_
    cases error with
    | none | duplicateMessage | queueFull => exact ih
    | invalidMtu | invalidPost | randomUnavailable => exact hmark

theorem acceptCompleted (completed : CompletedPost) :
    Careful (RadioRuntime.acceptCompleted completed now : RuntimeM ε Bool) := by
  have haccept : Careful (Process.onSession
      (Session.acceptReceivedPost completed.canonicalPost) : RuntimeM ε InboundPostStatus) := by
    refine onSession
      (causes_erase (c := .acceptReceivedPost completed.canonicalPost) (by rintro ⟨⟩)) ?_
    intro m hagrees
    have hcall := wp_call hagrees (.acceptReceivedPost completed.canonicalPost)
    rwa [Session.call, wp_bind] at hcall
  -- a post that the session refuses is only counted
  refine .bind haccept fun status => ?_
  cases status with
  | accepted | duplicate =>
    exact .bind (setRuntime _) fun _ => .bind (setRuntime _) fun _ => .pure _
  | _ => exact .bind (setRuntime _) fun _ => .pure _

theorem receiveDatagrams (work : ℕ) :
    Careful (RadioRuntime.receiveDatagrams radio now work) := by
  induction work with
  | zero => exact .pure _
  | succ work ih =>
    refine .bind memory fun _ => .bind (setRadio _) fun _ => ?_
    split
    · exact .pure _
    · exact .bind (setRuntime _) fun _ => .bind (setRuntime _) fun _ => ih

theorem processDatagrams (work : ℕ) :
    Careful (RadioRuntime.processDatagrams now work : RuntimeM ε Bool) := by
  induction work with
  | zero => exact .pure _
  | succ work ih =>
    refine .bind memory fun process => ?_
    rcases process.runtime.inbound.processNext now with ⟨inbound, processed⟩
    refine .bind (setRuntime _) fun _ => ?_
    split
    · exact .pure _
    split
    · exact ih
    split
    · exact ih
    -- only a post that is complete reaches the session
    · exact .bind (acceptCompleted now _) fun _ => .bind ih fun _ => .pure _

theorem pump : Careful (RadioRuntime.pump radio now) := by
  have houtbound : Careful (RadioRuntime.pumpOutbound radio now) := by
    refine .bind (.bind memory fun _ => .bind (setScheduler _) fun _ =>
      .bind (setRadio _) fun _ => .pure _) fun event => ?_
    split
    · exact .pure _
    · exact mark _
  refine .bind memory fun process => ?_
  split
  · exact .pure _
  split
  · exact .pure _
  exact .bind (.bind memory fun _ => enqueueEntries radio now _) fun _ => .bind houtbound fun _ =>
    .bind (.bind (receiveDatagrams radio now _) fun _ => processDatagrams now _) fun _ => .pure _

theorem stop : Careful (RadioRuntime.stop radio) := by
  refine .bind memory fun process => ?_
  split
  · exact .pure _
  · exact .bind (setScheduler _) fun _ => .bind (setRuntime _) fun _ => setRadio _

theorem shutdown : Careful (Process.onSession Session.shutdown : RuntimeM ε Unit) := by
  refine onSession (causes_erase (c := .shutdown) (by rintro ⟨⟩)) ?_
  intro m hagrees
  have hcall := wp_call hagrees .shutdown
  rwa [Session.call, wp_bind] at hcall

end Careful

end Careful

/-! ### Keys -/

section App

variable {ε : Type}

/-- What a key leaves of a dialog: it asks as before, and a chosen answer was chosen by Right
or before. -/
def Answered (key : UiKey) (before after : ActiveModal) : Prop :=
  ViewModel.Confirms after.id → after.confirmSelected = true →
    before.id = after.id ∧ (key = .right ∨ before.confirmSelected = true ∧ key ≠ .left)

/-- The answer to erase everything. -/
def Erases (key : UiKey) (modal : ActiveModal) : Prop :=
  key = .enter ∧ (modal.id = .deleteData ∨ modal.id = .recovery) ∧ modal.confirmSelected = true

/-- The answers that end the application. -/
def Leaves (key : UiKey) (modal : ActiveModal) : Prop :=
  key = .enter ∧ (modal.id = .exit ∨ modal.id = .deleteData ∨ modal.id = .recovery) ∧
      modal.confirmSelected = true ∨
    modal.id = .recovery ∧ (key = .escape ∨ key = .enter ∧ modal.confirmSelected = false)

/-- Dialogs stay as they are, and if the application ends, then with an error. -/
structure App.Undisturbed (before after : App ε) : Prop where
  running : after.running = true → before.running = true
  modal : ViewModel.Confirms after.view.activeModal.id →
    after.view.activeModal = before.view.activeModal
  failed : after.running = false → after.exitCode = 0 →
    before.running = false ∧ before.exitCode = 0

namespace App

variable {texts : Texts} {radio : Radio ε} {app before after : App ε} {m : Machine (App ε) Legacy}

namespace Undisturbed

theorem refl (app : App ε) : Undisturbed app app := ⟨id, fun _ => rfl, fun h h' => ⟨h, h'⟩⟩

theorem trans {last : App ε} (h : Undisturbed before after) (h' : Undisturbed after last) :
    Undisturbed before last := by
  refine ⟨fun hrunning => h.running (h'.running hrunning), fun hconfirms => ?_,
    fun hrunning hexit => (h'.failed hrunning hexit).elim h.failed⟩
  have hsame := h'.modal hconfirms
  rw [hsame] at hconfirms ⊢
  exact h.modal hconfirms

/-- The view has followed the messenger, and the application goes on. -/
theorem follows {view : ViewModel} (h : ViewModel.Follows app.view view) :
    Undisturbed app (app.setView view) :=
  ⟨id, fun hconfirms => Ui.confirms_follows h hconfirms, fun h h' => ⟨h, h'⟩⟩

theorem requestFailure (app : App ε) : Undisturbed app app.requestFailure := by
  refine ⟨?_, fun _ => rfl, fun _ => ?_⟩
  · rintro ⟨⟩
  · rintro ⟨⟩

theorem draw (texts : Texts) (rendered : Bool) (app : App ε) :
    Undisturbed app (app.draw texts rendered) := by
  have hfollows := app.view.prepareSnapshot_follows app.process.session.messenger
  cases rendered with
  | true => exact ⟨id, fun hconfirms => Ui.confirms_follows hfollows hconfirms, fun h h' => ⟨h, h'⟩⟩
  | false => exact (follows hfollows).trans (requestFailure _)

end Undisturbed

/-- A program of the process touches nothing else. -/
theorem wp_onProcess_undisturbed {α : Type} (program : RuntimeM ε α) (m : Machine (App ε) Legacy) :
    wp (onProcess program) (fun _ m' => Undisturbed m.memory m'.memory) (fun _ => True) m := by
  rw [onProcess, wp_zoom]
  exact wp_true fun _ _ => ⟨id, fun _ => rfl, fun h h' => ⟨h, h'⟩⟩

theorem wp_report_undisturbed (changed rendered : Bool) (m : Machine (App ε) Legacy) :
    wp (report texts radio changed rendered) (fun _ m' => Undisturbed m.memory m'.memory)
      (fun _ => True) m := by
  rw [report, wp_bind, wp_memory]
  dsimp only
  split
  · rw [wp_bind, wp_update, render, wp_update]
    refine .trans ?_ (.draw texts rendered _)
    exact ⟨id, fun _ => rfl, fun h h' => ⟨h, h'⟩⟩
  split
  · rw [wp_bind, wp_update, render, wp_update]
    refine .trans ?_ (.draw texts rendered _)
    exact .follows (m.memory.view.reconcileModel_follows m.memory.process.session.messenger)
  · exact .refl _

theorem Undisturbed.endTurn (scriptFailed : Bool) (app : App ε) :
    Undisturbed app (app.endTurn scriptFailed) := by
  have hclosed (app : App ε) :
      Undisturbed app ({ app with looping := app.running } : App ε) :=
    ⟨id, fun _ => rfl, fun h h' => ⟨h, h'⟩⟩
  cases scriptFailed with
  | true => exact .trans (.requestFailure app) (hclosed _)
  | false => exact hclosed app

theorem wp_turn_undisturbed (now : ℕ) (rendered scriptFailed : Bool) (m : Machine (App ε) Legacy) :
    wp (turn texts radio now rendered scriptFailed)
      (fun _ m' => Undisturbed m.memory m'.memory) (fun _ => True) m := by
  rw [turn, wp_bind, pumpRadio, wp_bind, wp_memory]
  split
  · rw [wp_bind]
    refine wp_mono (wp_onProcess_undisturbed _ m) (fun changed m₁ h₁ => ?_) (fun _ h => h)
    exact wp_mono (wp_report_undisturbed changed rendered m₁)
      (fun _ m₂ h₂ => (h₁.trans h₂).trans (.endTurn scriptFailed _)) (fun _ h => h)
  · exact .endTurn scriptFailed _

theorem wp_stopRadio_undisturbed (m : Machine (App ε) Legacy) :
    wp (stopRadio radio) (fun _ m' => Undisturbed m.memory m'.memory) (fun _ => True) m := by
  rw [stopRadio, wp_bind, wp_memory]
  split
  · exact wp_onProcess_undisturbed _ m
  · exact .refl _

theorem wp_finish_undisturbed (scriptPending : Bool) (m : Machine (App ε) Legacy) :
    wp (finish radio scriptPending) (fun _ m' => Undisturbed m.memory m'.memory)
      (fun _ => True) m := by
  have hfailed : Undisturbed m.memory
      (if scriptPending then m.memory.requestFailure else m.memory) := by
    split
    · exact .requestFailure _
    · exact .refl _
  rw [finish, wp_bind, wp_update, wp_bind]
  refine wp_mono (wp_stopRadio_undisturbed _) (fun _ m₁ h₁ => ?_) (fun _ h => h)
  exact wp_mono (wp_onProcess_undisturbed _ m₁) (fun _ _ h₂ => (hfailed.trans h₁).trans h₂)
    (fun _ h => h)

/-! ### What a key does -/

/-- What a key that is handled leaves behind. -/
structure Guarded (key : UiKey) (m : Machine (App ε) Legacy) (after : App ε) : Prop where
  answered : after.running = true → Answered key m.memory.view.activeModal after.view.activeModal
  left : after.running = false → after.exitCode = 0 → Leaves key m.memory.view.activeModal

/-- What is done with the answer of the view model. -/
theorem wp_follow_guarded {key : UiKey} {before : Machine (App ε) Legacy} {action : UiAction}
    (rendered : Bool) (hrunning : m.memory.running = true)
    (hanswered : Answered key before.memory.view.activeModal m.memory.view.activeModal)
    (hdelete : action.deleteDataApproved = true → Erases key before.memory.view.activeModal)
    (hexit : action.exitApproved = true → Leaves key before.memory.view.activeModal) :
    wp (follow texts action rendered) (fun _ m' => Guarded key before m'.memory)
      (fun _ => True) m := by
  have hdisturbed {after : App ε} (h : Undisturbed m.memory after) : Guarded key before after := by
    refine ⟨fun _ hconfirms hselected => ?_, fun hstopped hcode => ?_⟩
    · have hsame := h.modal hconfirms
      rw [hsame] at hconfirms hselected ⊢
      exact hanswered hconfirms hselected
    · rw [(h.failed hstopped hcode).1] at hrunning
      cases hrunning
  rw [follow]
  split
  · rename_i happroved
    obtain ⟨henter, hid, hselected⟩ := hdelete happroved
    rw [wp_bind, onProcess, wp_zoom, Process.onSession, wp_within]
    refine wp_true fun deleted m' => ?_
    cases deleted with
    | true =>
      -- the data is gone, and the application ends
      refine ⟨?_, fun _ _ => .inl ⟨henter, .inr hid, hselected⟩⟩
      rintro ⟨⟩
    | false =>
      -- an error is shown, which asks for nothing
      rw [if_neg Bool.false_ne_true, wp_bind, wp_update, render, wp_update]
      have hdrawn := Undisturbed.draw texts rendered
        (({ m.memory with process := { m.memory.process with session := m'.memory } } :
          App ε).setView m.memory.view.reportStorageFailure)
      refine ⟨fun _ hconfirms => ?_, fun hstopped hcode => ?_⟩
      · rw [hdrawn.modal hconfirms] at hconfirms
        rcases hconfirms with h | h | h | h <;> cases h
      · have hbefore := (hdrawn.failed hstopped hcode).1
        change m.memory.running = false at hbefore
        rw [hbefore] at hrunning
        cases hrunning
  · rw [wp_update]
    have hdrawn : Undisturbed m.memory
        (if action.renderRequired then m.memory.draw texts rendered else m.memory) := by
      split
      · exact .draw texts rendered _
      · exact .refl _
    dsimp only [obey]
    split
    · rename_i happroved
      -- the exit is approved, and no picture has failed
      refine ⟨?_, fun _ _ => hexit happroved.1⟩
      rintro ⟨⟩
    · exact hdisturbed hdrawn

variable (texts)

theorem wp_handleKey_guarded (hrunning : m.memory.running = true) (key : ℕ)
    (random : Option (Vector UInt8 16)) (now : Option Int64) (rendered : Bool) :
    wp (handleKey texts key random now rendered)
      (fun _ m' => Guarded (semanticKey key).key m m'.memory) (fun _ => True) m := by
  rw [handleKey, wp_bind, wp_memory, if_pos hrunning, wp_bind]
  refine wp_mono (wp_handle (semanticKey key) m.memory.view m) ?_ (fun _ _ => trivial)
  rintro ⟨action, view⟩ m' ⟨hasked, commit, environment, haction, hview, -⟩
  dsimp only at haction hview ⊢
  rw [wp_bind, wp_update]
  obtain ⟨hdelete, hexit⟩ := Ui.handle_approves (some commit) environment (semanticKey key)
    ⟨m.memory.view, m.memory.process.session.messenger.world⟩
  rw [haction] at hdelete hexit
  refine wp_follow_guarded rendered ?_ ?_ hdelete ?_
  · rw [setView]
    dsimp only
    rw [hasked.session]
    exact hrunning
  · intro hconfirms hselected
    -- the view is that of the pure handler, given what the port has answered
    have hflag := @Ui.handle_confirms Unit (some commit)
      ⟨m.memory.view, m.memory.process.session.messenger.world⟩ environment (semanticKey key)
    dsimp only at hflag
    rw [hview] at hflag
    exact (hflag hconfirms).mp hselected
  · intro happroved
    rcases hexit happroved with ⟨henter, hid, hselected⟩ | hrecovery
    · exact .inl ⟨henter, .inl hid, hselected⟩
    · exact .inr hrecovery

/-- Nothing has been erased since, and the session is in agreement with the disk. -/
def Spared (disk : Disk) (m : Machine (App ε) Legacy) : Prop :=
  Agrees m.memory.process.session m.durable.disk ∧ Reaches (· ≠ .erase) disk m.durable.disk

theorem wp_onProcess_spared {α : Type} {program : RuntimeM ε α} (hprogram : Careful program)
    (hagrees : Agrees m.memory.process.session m.durable.disk) :
    wp (onProcess program) (fun _ m' => Spared m.durable.disk m')
      (fun legacy => Reaches (· ≠ .erase) m.durable.disk legacy.disk) m := by
  rw [onProcess, wp_zoom]
  exact hprogram (inProcess m) hagrees

/-- The process is the same, and so is the transport. -/
def Kept (before after : App ε) : Prop :=
  after.process = before.process ∧ after.attached = before.attached

theorem kept_draw (texts : Texts) (rendered : Bool) (app : App ε) :
    app.Kept (app.draw texts rendered) := by
  cases rendered with
  | true => exact ⟨rfl, rfl⟩
  | false => exact ⟨rfl, rfl⟩

theorem process_create (texts : Texts) (radio : Radio ε) (start : AppStart ε)
    (process : Process ε) : (create texts radio start process).process = process := by
  rw [create]
  dsimp only
  split
  · exact (kept_draw texts start.rendered _).1
  · rfl

/-- What neither a picture nor the end changes. -/
theorem part_obey {β : Type} (part : App ε → β) {texts : Texts} {action : UiAction}
    {rendered : Bool} {app : App ε} (hdraw : part (app.draw texts rendered) = part app)
    (hstop : ∀ app : App ε, part app.requestStop = part app) :
    part (app.obey texts action rendered) = part app := by
  have hdrawn : part (if action.renderRequired then app.draw texts rendered else app) =
      part app := by
    split
    · exact hdraw
    · rfl
  rw [obey]
  split
  · exact (hstop _).trans hdrawn
  · exact hdrawn

theorem kept_obey (texts : Texts) (action : UiAction) (rendered : Bool) (app : App ε) :
    app.Kept (app.obey texts action rendered) := by
  obtain ⟨hprocess, hattached⟩ := kept_draw texts rendered app
  exact ⟨part_obey App.process hprocess fun _ => rfl, part_obey App.attached hattached fun _ => rfl⟩

theorem kept_endTurn (scriptFailed : Bool) (app : App ε) : app.Kept (app.endTurn scriptFailed) := by
  cases scriptFailed with
  | true => exact ⟨rfl, rfl⟩
  | false => exact ⟨rfl, rfl⟩

theorem kept_pending (scriptPending : Bool) (app : App ε) :
    app.Kept (if scriptPending then app.requestFailure else app) := by
  split
  · exact ⟨rfl, rfl⟩
  · exact ⟨rfl, rfl⟩

/-- The program has nothing to do with the process. -/
def Still {α : Type} (program : AppM ε α) (m : Machine (App ε) Legacy) : Prop :=
  wp program (fun _ m' => inProcess m' = inProcess m ∧ m'.memory.attached = m.memory.attached)
    (fun _ => False) m

theorem still_update {change : App ε → App ε} (h : ∀ app : App ε, app.Kept (change app))
    (m : Machine (App ε) Legacy) : Still (Prog.update change) m := by
  obtain ⟨hprocess, hattached⟩ := h m.memory
  rw [Still, wp_update, inProcess]
  dsimp only
  rw [hprocess]
  exact ⟨rfl, hattached⟩

theorem Still.bind {α β : Type} {program : AppM ε β} {next : β → AppM ε α} (h : Still program m)
    (hnext : ∀ value m', Still (next value) m') : Still (program >>= next) m := by
  rw [Still, wp_bind]
  refine wp_mono h (fun value m₁ h₁ => ?_) (fun _ h => h)
  exact wp_mono (hnext value m₁)
    (fun _ _ h₂ => ⟨h₂.1.trans h₁.1, h₂.2.trans h₁.2⟩) (fun _ h => h)

/-- What is shown changes nothing that the process has. -/
theorem still_report (texts : Texts) (radio : Radio ε) (changed rendered : Bool)
    (m : Machine (App ε) Legacy) : Still (report texts radio changed rendered) m := by
  have hredrawn {change : App ε → App ε} (hchange : ∀ app : App ε, app.Kept (change app)) :
      Still (do Prog.update change; render texts rendered) m :=
    (still_update hchange m).bind fun _ m' => still_update (kept_draw texts rendered) m'
  rw [Still, report, wp_bind, wp_memory]
  dsimp only
  split
  · refine hredrawn ?_
    exact fun _ => ⟨rfl, rfl⟩
  split
  · refine hredrawn ?_
    exact fun _ => ⟨rfl, rfl⟩
  · exact ⟨rfl, rfl⟩

/-- What a key asks of the session erases nothing. -/
theorem asUser_spared (random : Option (Vector UInt8 16)) {m : Machine (Process ε) Legacy}
    (hagrees : Agrees m.memory.session m.durable.disk) :
    (∀ m', AsUser random m (.done () m') → Agrees m'.memory.session m'.durable.disk ∧
      Reaches (· ≠ .erase) m.durable.disk m'.durable.disk) ∧
    ∀ legacy, AsUser random m (.crashed legacy) →
      Reaches (· ≠ .erase) m.durable.disk legacy.disk := by
  constructor
  · rintro m' (hsame | ⟨c, hcall, -⟩)
    · cases hsame
      exact ⟨hagrees, .refl⟩
    · have hcareful := Careful.user c m hagrees
      unfold wp at hcareful
      rw [hcall] at hcareful
      exact hcareful
  -- only a call of the session can crash
  · rintro legacy (hsame | ⟨c, hcall, -⟩)
    · cases hsame
    · have hcareful := Careful.user c m hagrees
      unfold wp at hcareful
      rw [hcall] at hcareful
      exact hcareful

/-- A key that erases nothing asks the session as a user does, and the rest is the view's. -/
theorem wp_handleKey_asUser (key : ℕ) (random : Option (Vector UInt8 16)) (now : Option Int64)
    (rendered : Bool) (hkeep : m.memory.running = true →
      ¬Erases (semanticKey key).key m.memory.view.activeModal) :
    wp (handleKey texts key random now rendered)
      (fun _ m' => m'.memory.attached = m.memory.attached ∧
        AsUser random (inProcess m) (.done () (inProcess m')))
      (fun legacy => AsUser random (inProcess m) (.crashed legacy)) m := by
  rw [handleKey, wp_bind, wp_memory]
  split
  swap
  -- after the end a key asks for nothing
  · exact ⟨rfl, .inl rfl⟩
  rename_i hrunning
  rw [wp_bind]
  refine wp_mono (wp_handle (semanticKey key) m.memory.view m) ?_ (fun _ h => h)
  rintro ⟨action, view⟩ m' ⟨hasked, commit, environment, haction, hview, -⟩
  dsimp only at haction ⊢
  rw [wp_bind, wp_update]
  obtain ⟨hdelete, -⟩ := Ui.handle_approves (some commit) environment (semanticKey key)
    ⟨m.memory.view, m.memory.process.session.messenger.world⟩
  rw [haction] at hdelete
  -- the view model approves of erasing only what the user has answered
  rw [follow, if_neg fun happroved => hkeep hrunning (hdelete happroved), wp_update]
  obtain ⟨hsame, hattached⟩ :=
    still_update (kept_obey texts action rendered) { m' with memory := m'.memory.setView view }
  have hopened : m'.memory.attached = m.memory.attached := by rw [hasked.session]
  refine ⟨hattached.trans hopened, ?_⟩
  rw [hsame]
  exact hasked.asUser

theorem wp_handleKey_spared (hagrees : Agrees m.memory.process.session m.durable.disk) (key : ℕ)
    (random : Option (Vector UInt8 16)) (now : Option Int64) (rendered : Bool)
    (hkeep : m.memory.running = true →
      ¬Erases (semanticKey key).key m.memory.view.activeModal) :
    wp (handleKey texts key random now rendered) (fun _ m' => Spared m.durable.disk m')
      (fun legacy => Reaches (· ≠ .erase) m.durable.disk legacy.disk) m := by
  obtain ⟨hdone, hcrashed⟩ := asUser_spared random (m := inProcess m) hagrees
  exact wp_mono (wp_handleKey_asUser texts key random now rendered hkeep)
    (fun _ m' hasked => hdone (inProcess m') hasked.2) hcrashed

variable {texts}

theorem Spared.trans {disk : Disk} {m' : Machine (App ε) Legacy} (h : Spared disk m)
    (h' : Spared m.durable.disk m') : Spared disk m' := ⟨h'.1, h.2.trans h'.2⟩

theorem Spared.bind {α β : Type} {program : AppM ε β} {next : β → AppM ε α} {disk : Disk}
    (h : wp program (fun _ m' => Spared disk m')
      (fun legacy => Reaches (· ≠ .erase) disk legacy.disk) m)
    (hnext : ∀ value m', Agrees m'.memory.process.session m'.durable.disk →
      wp (next value) (fun _ m'' => Spared m'.durable.disk m'')
        (fun legacy => Reaches (· ≠ .erase) m'.durable.disk legacy.disk) m') :
    wp (program >>= next) (fun _ m' => Spared disk m')
      (fun legacy => Reaches (· ≠ .erase) disk legacy.disk) m := by
  rw [wp_bind]
  refine wp_mono h (fun value m₁ h₁ => ?_) (fun _ h => h)
  exact wp_mono (hnext value m₁ h₁.1) (fun _ _ h₂ => h₁.trans h₂) (fun _ h₂ => h₁.2.trans h₂)

theorem Still.spared {α : Type} {program : AppM ε α} (h : Still program m)
    (hagrees : Agrees m.memory.process.session m.durable.disk) :
    wp program (fun _ m' => Spared m.durable.disk m')
      (fun legacy => Reaches (· ≠ .erase) m.durable.disk legacy.disk) m := by
  refine wp_mono h ?_ (fun _ h => h.elim)
  rintro _ m' ⟨hsame, -⟩
  have hprocess : (inProcess m').memory = (inProcess m).memory := by rw [hsame]
  have hdurable : (inProcess m').durable = (inProcess m).durable := by rw [hsame]
  change m'.memory.process = m.memory.process at hprocess
  change m'.durable = m.durable at hdurable
  rw [Spared, hprocess, hdurable]
  exact ⟨hagrees, .refl⟩

theorem wp_turn_spared (now : ℕ) (rendered scriptFailed : Bool)
    (hagrees : Agrees m.memory.process.session m.durable.disk) :
    wp (turn texts radio now rendered scriptFailed) (fun _ m' => Spared m.durable.disk m')
      (fun legacy => Reaches (· ≠ .erase) m.durable.disk legacy.disk) m := by
  refine Spared.bind ?_ fun _ m' hagrees' => ?_
  · rw [pumpRadio, wp_bind, wp_memory]
    split
    · exact Spared.bind (wp_onProcess_spared (Careful.pump radio now) hagrees)
        fun changed m' hagrees' => (still_report texts radio changed rendered m').spared hagrees'
    · exact ⟨hagrees, .refl⟩
  · exact (still_update (kept_endTurn scriptFailed) _).spared hagrees'

theorem wp_finish_spared (scriptPending : Bool)
    (hagrees : Agrees m.memory.process.session m.durable.disk) :
    wp (finish radio scriptPending) (fun _ m' => Spared m.durable.disk m')
      (fun legacy => Reaches (· ≠ .erase) m.durable.disk legacy.disk) m := by
  refine Spared.bind ((still_update (kept_pending scriptPending) m).spared hagrees)
    fun _ m₁ hagrees₁ => Spared.bind ?_ fun _ m₂ hagrees₂ => ?_
  · rw [stopRadio, wp_bind, wp_memory]
    split
    · exact wp_onProcess_spared (Careful.stop radio) hagrees₁
    · exact ⟨hagrees₁, .refl⟩
  · exact wp_onProcess_spared Careful.shutdown hagrees₂

end App

/-! ### Runs -/

/-- The event is that key. -/
def AppEvent.IsKey (key : UiKey) : AppEvent ε → Prop
  | .key code _ _ _ _ => (semanticKey code).key = key
  | _ => False

namespace AppWorld

variable (texts : Texts) (radio : Radio ε) (disk : Disk) (start : AppStart ε)

/-- The application runs, and shows that dialog. -/
def Showing (events : List (AppEvent ε)) (id : ModalId) : Prop :=
  ∃ app, (run texts radio disk start events).app = some app ∧ app.running = true ∧
    app.view.activeModal.id = id

/-- Right has been pressed in the dialog, it has been open ever since, and no Left came
after it. -/
def ConfirmedSince (events : List (AppEvent ε)) (id : ModalId) : Prop :=
  ∃ earlier right later, events = earlier ++ right :: later ∧ right.IsKey .right ∧
    (∀ event ∈ later, ¬event.IsKey .left) ∧
    ∀ done, earlier <+: done → done <+: events → Showing texts radio disk start done id

variable {texts radio disk start} {events : List (AppEvent ε)} {event : AppEvent ε} {id : ModalId}
  {world : AppWorld ε}

theorem ConfirmedSince.concat (hbefore : Showing texts radio disk start events id)
    (hafter : Showing texts radio disk start (events ++ [event]) id)
    (h : event.IsKey .right ∨
      ConfirmedSince texts radio disk start events id ∧ ¬event.IsKey .left) :
    ConfirmedSince texts radio disk start (events ++ [event]) id := by
  rcases h with hright | ⟨⟨earlier, right, later, rfl, hright, hlater, hopen⟩, hleft⟩
  -- Right is the last event: the dialog is open before it and after it
  · refine ⟨events, event, [], rfl, hright, List.forall_mem_nil _, fun done hfirst hlast => ?_⟩
    rcases List.prefix_concat_iff.mp hlast with rfl | hlast
    · exact hafter
    · rw [hlast.eq_of_length_le hfirst.length_le]
      exact hbefore
  · refine ⟨earlier, right, later ++ [event], by simp, hright, fun other hother => ?_,
      fun done hfirst hlast => ?_⟩
    · rcases List.mem_append.mp hother with hother | hother
      · exact hlater other hother
      · rw [List.mem_singleton.mp hother]
        exact hleft
    · rcases List.prefix_concat_iff.mp hlast with rfl | hlast
      · exact hafter
      · exact hopen done hfirst hlast

/-- What a program leaves behind, if it returns and if it crashes. -/
theorem perform_wp {program : AppM ε Unit} {faults : List Fault}
    {post : Unit → Machine (App ε) Legacy → Prop} {crash : Legacy → Prop} {app : App ε}
    (happ : world.app = some app) (h : wp program post crash ⟨app, world.legacy, faults⟩) :
    (∃ m', world.perform program faults = ⟨m'.durable, some m'.memory⟩ ∧ post () m') ∨
      ∃ legacy, world.perform program faults = ⟨legacy, none⟩ ∧ crash legacy := by
  unfold wp at h
  rw [perform, happ]
  dsimp only
  rcases hrun : program ⟨app, world.legacy, faults⟩ with ⟨value, m'⟩ | legacy <;> rw [hrun] at h
  · exact .inl ⟨m', rfl, h⟩
  · exact .inr ⟨legacy, rfl, h⟩

/-- What follows a key or another event for an application that is there. -/
inductive Follows (event : AppEvent ε) (before after : App ε) : Prop
  | undisturbed (hkey : before.running = true → ∀ key, ¬event.IsKey key)
    (h : before.Undisturbed after)
  | deleted (hevent : event = .displayDeleted) (hafter : after.running = false)
  | key {code : ℕ} {random : Option (Vector UInt8 16)} {now : Option Int64} {rendered : Bool}
    {faults : List Fault} (hevent : event = .key code random now rendered faults)
    (hrunning : before.running = true) {legacy : Legacy}
    (h : App.Guarded (semanticKey code).key ⟨before, legacy, faults⟩ after)

/-- What a program does to any application, it has done to the one that is there. -/
theorem perform_related (relation : App ε → App ε → Prop) {program : AppM ε Unit}
    {faults : List Fault} {after : App ε}
    (hprogram : ∀ m, wp program (fun _ m' => relation m.memory m'.memory) (fun _ => True) m)
    (h : (world.perform program faults).app = some after) :
    ∃ before, world.app = some before ∧ relation before after := by
  obtain ⟨before, m', hbefore, hrun, rfl⟩ := perform_eq_some h
  have hafter := hprogram ⟨before, world.legacy, faults⟩
  unfold wp at hafter
  rw [hrun] at hafter
  exact ⟨before, hbefore, hafter⟩

/-- The radio has come to another state, and the program is run under a condition. -/
theorem wp_when_undisturbed (condition : App ε → Bool) (state : ε) {program : AppM ε Unit}
    (hprogram : ∀ m, wp program (fun _ m' => m.memory.Undisturbed m'.memory) (fun _ => True) m)
    (m : Machine (App ε) Legacy) :
    wp (do
      let app ← Prog.memory
      if condition app then
        App.onProcess (Process.setRadio state)
        program) (fun _ m' => m.memory.Undisturbed m'.memory) (fun _ => True) m := by
  rw [wp_bind, wp_memory]
  split
  · rw [wp_bind]
    refine wp_mono (App.wp_onProcess_undisturbed _ m) (fun _ m₁ h₁ => ?_) (fun _ h => h)
    exact wp_mono (hprogram m₁) (fun _ _ h₂ => h₁.trans h₂) (fun _ h => h)
  · exact .refl _

theorem step_follows {after : App ε} (h : (world.step texts radio event).app = some after) :
    ∃ before, world.app = some before ∧ Follows event before after := by
  cases event with
  | key code random now rendered faults =>
    obtain ⟨before, m', hbefore, hrun, rfl⟩ := perform_eq_some h
    refine ⟨before, hbefore, ?_⟩
    by_cases hrunning : before.running = true
    · have hguarded := App.wp_handleKey_guarded texts (m := ⟨before, world.legacy, faults⟩)
        hrunning code random now rendered
      unfold wp at hguarded
      rw [hrun] at hguarded
      exact .key rfl hrunning hguarded
    · -- after the end nothing is handled
      have hsame : wp (App.handleKey texts code random now rendered)
          (fun _ m' => before.Undisturbed m'.memory) (fun _ => True)
          ⟨before, world.legacy, faults⟩ := by
        rw [App.handleKey, wp_bind, wp_memory, if_neg hrunning]
        exact .refl before
      unfold wp at hsame
      rw [hrun] at hsame
      exact .undisturbed (fun h => absurd h hrunning) hsame
  | displayDeleted =>
    obtain ⟨before, m', hbefore, hrun, rfl⟩ := perform_eq_some h
    cases hrun
    exact ⟨before, hbefore, .deleted rfl rfl⟩
  | turn now state rendered scriptFailed faults =>
    obtain ⟨before, hbefore, hundisturbed⟩ := perform_related App.Undisturbed
      (wp_when_undisturbed App.looping state
        (App.wp_turn_undisturbed now rendered scriptFailed)) h
    exact ⟨before, hbefore, .undisturbed (fun _ _ h => h) hundisturbed⟩
  | finish state scriptPending =>
    obtain ⟨before, hbefore, hundisturbed⟩ := perform_related App.Undisturbed
      (wp_when_undisturbed (fun app => !app.looping) state
        (App.wp_finish_undisturbed scriptPending)) h
    exact ⟨before, hbefore, .undisturbed (fun _ _ h => h) hundisturbed⟩

/-- The application that has just been built has no chosen answer. -/
theorem create_confirmSelected (texts : Texts) (radio : Radio ε) (start : AppStart ε)
    (process : Process ε)
    (hconfirms : ViewModel.Confirms (App.create texts radio start process).view.activeModal.id) :
    (App.create texts radio start process).view.activeModal.confirmSelected = false := by
  have hbuilt : (App.build radio start process).view.activeModal.confirmSelected = false :=
    Ui.start_confirmSelected process.session.messenger.world _ _ _
  rw [App.create] at hconfirms ⊢
  dsimp only at hconfirms ⊢
  split at hconfirms
  · rename_i hrunning
    rw [if_pos hrunning, (App.Undisturbed.draw texts start.rendered _).modal hconfirms]
    exact hbuilt
  · rename_i hrunning
    rw [if_neg hrunning]
    exact hbuilt

theorem start_confirmSelected {app : App ε}
    (happ : (AppWorld.start texts radio disk start).app = some app)
    (hconfirms : ViewModel.Confirms app.view.activeModal.id) :
    app.view.activeModal.confirmSelected = false := by
  rw [AppWorld.start] at happ
  rcases hboot : Session.bootstrap start.environment start.random ⟨{}, disk, start.faults⟩ with
    ⟨_, m⟩ | left <;> rw [hboot] at happ
  · cases happ
    exact create_confirmSelected texts radio start _ hconfirms
  · cases happ

/-- An answer that is chosen was chosen with Right, in the dialog that is open now. -/
theorem run_confirmed : ∀ app, (run texts radio disk start events).app = some app →
    app.running = true → ViewModel.Confirms app.view.activeModal.id →
    app.view.activeModal.confirmSelected = true →
      ConfirmedSince texts radio disk start events app.view.activeModal.id := by
  induction events using List.reverseRecOn with
  | nil =>
    intro app happ hrunning hconfirms hselected
    rw [start_confirmSelected happ hconfirms] at hselected
    cases hselected
  | append_singleton events event ih =>
    intro after hafter hrunning hconfirms hselected
    have hshowing : Showing texts radio disk start (events ++ [event])
        after.view.activeModal.id := ⟨after, hafter, hrunning, rfl⟩
    rw [run_concat] at hafter
    obtain ⟨before, hbefore, hfollows⟩ := step_follows hafter
    cases hfollows with
    -- the dialog is the one that was open before
    | undisturbed hkey h =>
      have hbeforeRunning := h.running hrunning
      have hsame := h.modal hconfirms
      have hopen : Showing texts radio disk start events after.view.activeModal.id :=
        ⟨before, hbefore, hbeforeRunning, by rw [hsame]⟩
      rw [hsame] at hconfirms hselected
      have hconfirmed := ih before hbefore hbeforeRunning hconfirms hselected
      rw [← hsame] at hconfirmed
      exact .concat hopen hshowing (.inr ⟨hconfirmed, hkey hbeforeRunning .left⟩)
    | deleted hevent hstopped =>
      rw [hstopped] at hrunning
      cases hrunning
    -- either Right chooses the answer, or it was chosen and Left does not take it back
    | key hevent hbeforeRunning h =>
      obtain ⟨hid, hanswer⟩ := h.answered hrunning hconfirms hselected
      dsimp only at hid hanswer
      have hopen : Showing texts radio disk start events after.view.activeModal.id :=
        ⟨before, hbefore, hbeforeRunning, hid⟩
      refine .concat hopen hshowing (hanswer.imp ?_ ?_)
      · intro hright
        rw [hevent]
        exact hright
      · rintro ⟨hchosen, hleft⟩
        have hconfirmed := ih before hbefore hbeforeRunning (hid ▸ hconfirms) hchosen
        refine ⟨hid ▸ hconfirmed, ?_⟩
        rw [hevent]
        exact hleft

/-! ### Answers -/

/-- The event is a key that gives that answer to the dialog that is shown. -/
def Given (answer : UiKey → ActiveModal → Prop) (world : AppWorld ε) (event : AppEvent ε) :
    Prop :=
  ∃ app key random now rendered faults, world.app = some app ∧ app.running = true ∧
    event = .key key random now rendered faults ∧
    answer (semanticKey key).key app.view.activeModal

/-- Nothing has been erased, and the session is in agreement with the disk. -/
def Spared (disk : Disk) (world : AppWorld ε) : Prop :=
  Reaches (· ≠ .erase) disk world.legacy.disk ∧
    ∀ app, world.app = some app → Agrees app.process.session world.legacy.disk

theorem start_spared : Spared disk (AppWorld.start texts radio disk start) := by
  have hstart : ∀ cause, cause = Cause.start → cause ≠ .erase := by
    rintro cause rfl ⟨⟩
  have hwp := wp_bootstrap start.environment start.random disk start.faults
  unfold wp at hwp
  rw [AppWorld.start]
  rcases hboot : Session.bootstrap start.environment start.random ⟨{}, disk, start.faults⟩ with
    ⟨_, m⟩ | left <;> rw [hboot] at hwp
  · refine ⟨hwp.1.mono hstart, fun app happ hready => ?_⟩
    cases happ
    rw [App.process_create] at hready ⊢
    obtain ⟨v, hshows, hdisk, -⟩ := hwp.2 hready
    exact ⟨v, hshows, hdisk⟩
  · refine ⟨hwp.mono hstart, fun app happ => ?_⟩
    cases happ

theorem Spared.perform (h : Spared disk world) {program : AppM ε Unit} {faults : List Fault}
    (hprogram : ∀ app, world.app = some app →
      Agrees app.process.session world.legacy.disk →
      wp program (fun _ m' => App.Spared world.legacy.disk m')
        (fun legacy => Reaches (· ≠ .erase) world.legacy.disk legacy.disk)
        ⟨app, world.legacy, faults⟩) :
    Spared disk (world.perform program faults) := by
  obtain ⟨hreach, hagrees⟩ := h
  rcases happ : world.app with _ | app
  · rw [AppWorld.perform, happ]
    exact ⟨hreach, fun app h => by rw [happ] at h; cases h⟩
  rcases perform_wp happ (hprogram app happ (hagrees app happ)) with
    ⟨m', hperform, hagrees', hreach'⟩ | ⟨legacy, hperform, hreach'⟩ <;> rw [hperform]
  · refine ⟨hreach.trans hreach', fun after hafter => ?_⟩
    cases hafter
    exact hagrees'
  · refine ⟨hreach.trans hreach', fun after hafter => ?_⟩
    cases hafter

/-- The radio has come to another state, and the program is run under a condition. -/
theorem wp_when_spared (condition : App ε → Bool) (state : ε) {program : AppM ε Unit}
    {m : Machine (App ε) Legacy} (hagrees : Agrees m.memory.process.session m.durable.disk)
    (hprogram : ∀ m : Machine (App ε) Legacy, Agrees m.memory.process.session m.durable.disk →
      wp program (fun _ m' => App.Spared m.durable.disk m')
        (fun legacy => Reaches (· ≠ .erase) m.durable.disk legacy.disk) m) :
    wp (do
      let app ← Prog.memory
      if condition app then
        App.onProcess (Process.setRadio state)
        program) (fun _ m' => App.Spared m.durable.disk m')
      (fun legacy => Reaches (· ≠ .erase) m.durable.disk legacy.disk) m := by
  rw [wp_bind, wp_memory]
  split
  · exact App.Spared.bind (App.wp_onProcess_spared (Careful.setRadio state) hagrees)
      fun _ m' hagrees' => hprogram m' hagrees'
  · exact ⟨hagrees, .refl⟩

theorem Spared.step (h : Spared disk world) (hkeep : ¬Given Erases world event) :
    Spared disk (world.step texts radio event) := by
  cases event with
  | key key random now rendered faults =>
    refine h.perform fun app happ hagrees => ?_
    refine App.wp_handleKey_spared texts hagrees key random now rendered fun hrunning herases => ?_
    exact hkeep ⟨app, key, random, now, rendered, faults, happ, hrunning, rfl, herases⟩
  | displayDeleted => exact h.perform fun app happ hagrees => ⟨hagrees, .refl⟩
  | turn now state rendered scriptFailed faults =>
    refine h.perform fun app happ hagrees => wp_when_spared App.looping state hagrees ?_
    exact fun m hagrees => App.wp_turn_spared now rendered scriptFailed hagrees
  | finish state scriptPending =>
    refine h.perform fun app happ hagrees =>
      wp_when_spared (fun app => !app.looping) state hagrees ?_
    exact fun m hagrees => App.wp_finish_spared scriptPending hagrees

/-- Nothing is erased before the answer to erase everything has been given. -/
theorem run_spared : Spared disk (run texts radio disk start events) ∨
    ∃ earlier event later, events = earlier ++ event :: later ∧
      Given Erases (run texts radio disk start earlier) event := by
  induction events using List.reverseRecOn with
  | nil => exact .inl start_spared
  | append_singleton events event ih =>
    rcases ih with hspared | ⟨earlier, given, later, rfl, hgiven⟩
    · by_cases hgiven : Given Erases (run texts radio disk start events) event
      · exact .inr ⟨events, event, [], rfl, hgiven⟩
      · rw [run_concat]
        exact .inl (hspared.step hgiven)
    · exact .inr ⟨earlier, given, later ++ [event], by simp, hgiven⟩

theorem start_failed {app : App ε}
    (happ : (AppWorld.start texts radio disk start).app = some app)
    (hstopped : app.running = false) : app.exitCode ≠ 0 := by
  rw [AppWorld.start] at happ
  rcases hboot : Session.bootstrap start.environment start.random ⟨{}, disk, start.faults⟩ with
    ⟨_, m⟩ | left <;> rw [hboot] at happ
  swap
  · cases happ
  cases happ
  rw [App.create] at hstopped ⊢
  dsimp only at hstopped ⊢
  split at hstopped
  · rename_i hrunning
    rw [if_pos hrunning]
    intro hcode
    have hbefore := ((App.Undisturbed.draw texts start.rendered _).failed hstopped hcode).1
    rw [hbefore] at hrunning
    cases hrunning
  · rename_i hrunning
    rw [if_neg hrunning]
    exact Nat.one_ne_zero

/-- An application that has ended without an error was told to end. -/
theorem run_stopped : ∀ app, (run texts radio disk start events).app = some app →
    app.running = false → app.exitCode = 0 → .displayDeleted ∈ events ∨
      ∃ earlier event later, events = earlier ++ event :: later ∧
        Given Leaves (run texts radio disk start earlier) event := by
  induction events using List.reverseRecOn with
  | nil =>
    intro app happ hstopped hcode
    exact absurd hcode (start_failed happ hstopped)
  | append_singleton events event ih =>
    intro after hafter hstopped hcode
    rw [run_concat] at hafter
    obtain ⟨before, hbefore, hfollows⟩ := step_follows hafter
    cases hfollows with
    | undisturbed hkey h =>
      obtain ⟨hbeforeStopped, hbeforeCode⟩ := h.failed hstopped hcode
      refine (ih before hbefore hbeforeStopped hbeforeCode).imp (List.mem_append_left _) ?_
      rintro ⟨earlier, given, later, rfl, hgiven⟩
      exact ⟨earlier, given, later ++ [event], by simp, hgiven⟩
    | deleted hevent _ => exact .inl (List.mem_append_right _ (List.mem_singleton.mpr hevent.symm))
    | key hevent hrunning h =>
      exact .inr ⟨events, event, [], rfl, before, _, _, _, _, _, hbefore, hrunning, hevent,
        h.left hstopped hcode⟩

end AppWorld

open AppWorld

/-- **The application acts only when it is told to.**  Keys, turns of the loop, posts that come
in, changes of the link, faults of the storage and a display that vanishes follow one another in
any order.  Unless Enter was pressed in a dialog that asks to erase the data, and Right had been
pressed in the same dialog before, without Left after it and without the dialog closing in
between, nothing has been erased.  If the application has ended without an error, its display
was deleted, or Enter was pressed likewise in the dialog that asks to exit or to erase, or a
session that cannot be recovered was left. -/
theorem app_acts_only_when_told (texts : Texts) (radio : Radio ε) (disk : Disk)
    (start : AppStart ε) (events : List (AppEvent ε)) :
    (Reaches (· ≠ .erase) disk (run texts radio disk start events).legacy.disk ∨
      ∃ earlier enter later, events = earlier ++ enter :: later ∧ enter.IsKey .enter ∧
        ∃ id, (id = .deleteData ∨ id = .recovery) ∧
          ConfirmedSince texts radio disk start earlier id) ∧
    ∀ app, (run texts radio disk start events).app = some app → app.running = false →
      app.exitCode = 0 → .displayDeleted ∈ events ∨
        ∃ earlier event later, events = earlier ++ event :: later ∧
          (event.IsKey .enter ∧ (∃ id, (id = .exit ∨ id = .deleteData) ∧
              ConfirmedSince texts radio disk start earlier id) ∨
            (event.IsKey .escape ∨ event.IsKey .enter) ∧
              Showing texts radio disk start earlier .recovery) := by
  constructor
  · refine run_spared.imp And.left ?_
    rintro ⟨earlier, _, later, hevents, app, key, random, now, rendered, faults, happ, hrunning,
      rfl, henter, hid, hselected⟩
    have hconfirms : ViewModel.Confirms app.view.activeModal.id :=
      .inr (.inr hid)
    exact ⟨earlier, _, later, hevents, henter, _, hid,
      run_confirmed app happ hrunning hconfirms hselected⟩
  · intro app happ hstopped hcode
    refine (run_stopped app happ hstopped hcode).imp_right ?_
    rintro ⟨earlier, _, later, hevents, before, key, random, now, rendered, faults, hbefore,
      hrunning, rfl, hleaves⟩
    refine ⟨earlier, _, later, hevents, ?_⟩
    -- a session that cannot be recovered is left without an answer
    rcases hleaves with ⟨henter, hid, hselected⟩ | ⟨hid, hkey⟩
    · rcases hid with hid | hid | hid
      · exact .inl ⟨henter, _, .inl hid,
          run_confirmed before hbefore hrunning (.inr (.inl hid)) hselected⟩
      · exact .inl ⟨henter, _, .inr hid,
          run_confirmed before hbefore hrunning (.inr (.inr (.inl hid))) hselected⟩
      · exact .inr ⟨.inr henter, before, hbefore, hrunning, hid⟩
    · exact .inr ⟨hkey.imp_right And.left, before, hbefore, hrunning, hid⟩

/-- The exit is asked for and confirmed. -/
def leaving : List (AppEvent Link) :=
  [.key 2 none none true [], .turn 0 {} true false [], .key 19 none none true [],
    .key 10 none none true []]

theorem app_acts_only_when_told_leaving :
    ∃ earlier event later, leaving = earlier ++ event :: later ∧
      (event.IsKey .enter ∧ (∃ id, (id = .exit ∨ id = .deleteData) ∧
          ConfirmedSince Texts.blank Link.radio ⟨.missing, .missing⟩ .linked earlier id) ∨
        (event.IsKey .escape ∨ event.IsKey .enter) ∧
          Showing Texts.blank Link.radio ⟨.missing, .missing⟩ .linked earlier .recovery) := by
  have hrun : (run Texts.blank Link.radio ⟨.missing, .missing⟩ .linked leaving).app.map
      (fun app => (app.running, app.exitCode)) = some (false, 0) := by decide +kernel
  obtain ⟨app, happ, hstate⟩ := Option.map_eq_some_iff.mp hrun
  obtain ⟨hstopped, hcode⟩ := Prod.mk.inj hstate
  refine ((app_acts_only_when_told Texts.blank Link.radio ⟨.missing, .missing⟩ .linked
    leaving).2 app happ hstopped hcode).resolve_left fun hdeleted => ?_
  simp [leaving] at hdeleted

end App

end Lora
