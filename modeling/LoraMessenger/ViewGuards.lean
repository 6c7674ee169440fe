/-
What the view guards.

The device is wiped, the program left and a draft thrown away only after the user has
confirmed it.  One flag of the open modal holds the answer, so a run has to be followed from
the key that sets it: `Ui.ConfirmedSince` says that the modal has been open all the time
since then.  The draft is kept in a form that the messenger accepts.

* `Ui.confirmSelected_iff` — the flag means what the keys say;
* `destructive_actions_confirmed` — nothing is destroyed without an answer;
* `draft_stays_valid` — the draft of a run, and what `compose` finds wrong with it.
-/
import LoraMessenger.ViewRun

namespace Lora

/-- The step is that key. -/
def UiStep.IsKey {σ : Type} (key : UiKey) : UiStep σ → Prop
  | .key _ event => event.key = key
  | _ => False

namespace Ui

variable {σ : Type} {commit : Option (StateCommit σ)} {start ui : Ui σ} {steps : List (UiStep σ)}
  {step : UiStep σ} {id : ModalId}

/-! ### Confirmed modals -/

/-- A Right key has been handled while the modal was open, it has been open ever since, and
no Left key came after it. -/
def ConfirmedSince (commit : Option (StateCommit σ)) (start : Ui σ) (steps : List (UiStep σ))
    (id : ModalId) : Prop :=
  ∃ earlier right later, steps = earlier ++ right :: later ∧ right.IsKey .right ∧
    (∀ step ∈ later, ¬step.IsKey .left) ∧
    ∀ done, earlier <+: done → done <+: steps → (start.run commit done).view.activeModal.id = id

theorem not_confirmedSince_nil : ¬ConfirmedSince commit start [] id := by
  rintro ⟨earlier, right, later, hsteps, -⟩
  cases earlier <;> cases hsteps

/-- One more step. -/
theorem confirmedSince_concat
    (hid : (start.run commit (steps ++ [step])).view.activeModal.id = id) :
    ConfirmedSince commit start (steps ++ [step]) id ↔
      (start.run commit steps).view.activeModal.id = id ∧
        (step.IsKey .right ∨ ConfirmedSince commit start steps id ∧ ¬step.IsKey .left) := by
  constructor
  · rintro ⟨earlier, right, later, hsteps, hright, hlater, hopen⟩
    rcases List.eq_nil_or_concat later with rfl | ⟨later, last, rfl⟩
    · obtain ⟨rfl, hlast⟩ := List.append_inj' hsteps rfl
      obtain rfl := List.singleton_inj.mp hlast
      exact ⟨hopen _ (List.prefix_refl _) (List.prefix_append _ _), .inl hright⟩
    · rw [List.concat_eq_append] at hsteps hlater
      rw [← List.cons_append, ← List.append_assoc] at hsteps
      obtain ⟨rfl, hlast⟩ := List.append_inj' hsteps rfl
      obtain rfl := List.singleton_inj.mp hlast
      refine ⟨hopen _ (List.prefix_append _ _) (List.prefix_append _ _),
        .inr ⟨?_, hlater _ (by simp)⟩⟩
      exact ⟨earlier, right, later, rfl, hright, fun other hother =>
        hlater other (List.mem_append_left _ hother),
        fun done hfirst hlast => hopen done hfirst (hlast.trans (List.prefix_append _ _))⟩
  · rintro ⟨hbefore, hright | ⟨⟨earlier, right, later, rfl, hright, hlater, hopen⟩, hleft⟩⟩
    · refine ⟨steps, step, [], rfl, hright, List.forall_mem_nil _, fun done hfirst hlast => ?_⟩
      rcases List.prefix_concat_iff.mp hlast with rfl | hlast
      · exact hid
      · rw [hlast.eq_of_length_le hfirst.length_le]
        exact hbefore
    · refine ⟨earlier, right, later ++ [step], by simp, hright, fun other hother =>
        ?_, fun done hfirst hlast => ?_⟩
      · rcases List.mem_append.mp hother with hother | hother
        · exact hlater other hother
        · rw [List.mem_singleton.mp hother]
          exact hleft
      · rcases List.prefix_concat_iff.mp hlast with rfl | hlast
        · exact hid
        · exact hopen done hfirst hlast

/-- The modal after `reconcile_model`, where it asks for something. -/
theorem confirms_follows {view next : ViewModel} (h : ViewModel.Follows view next)
    (hid : ViewModel.Confirms next.activeModal.id) : next.activeModal = view.activeModal :=
  h.modal_eq (by rcases hid with hid | hid | hid | hid <;> rw [hid] <;> decide)

theorem confirms_ne_none (hid : ViewModel.Confirms id) : id ≠ .none := by
  rcases hid with hid | hid | hid | hid <;> rw [hid] <;> decide

/-- What a key does to the flag. -/
theorem handle_confirms {environment : UiEnvironment} {event : KeyEvent} :
    let next := (ui.handle commit environment event).2
    ViewModel.Confirms next.view.activeModal.id →
      (next.view.activeModal.confirmSelected = true ↔
        ui.view.activeModal.id = next.view.activeModal.id ∧
          (event.key = .right ∨ ui.view.activeModal.confirmSelected = true ∧
            event.key ≠ .left)) := by
  intro next hconfirms
  have hfollows := ui.view.reconcileModel_follows ui.world.messenger
  -- with no modal open the flag starts cleared
  by_cases hnone : (ui.view.reconcileModel ui.world.messenger).activeModal.id = .none
  · have hquiet := @handle_quiet σ commit environment event ui hnone
    have hid : ui.view.activeModal.id = .none := by
      rw [← hfollows.modal_eq (by rw [hnone]; decide)]
      exact hnone
    rcases hquiet.modal with hsame | hcancelled
    · exact absurd ((congrArg ActiveModal.id hsame).trans hnone) (confirms_ne_none hconfirms)
    · refine iff_of_false (Bool.eq_false_iff.mp hcancelled) ?_
      rintro ⟨hopen, -⟩
      exact confirms_ne_none hconfirms (hopen.symm.trans hid)
  · have hanswers := @handle_answers σ commit environment event ui hnone
    change ViewModel.Answers _ _ _ _ next.view at hanswers
    generalize hview : ui.view.reconcileModel ui.world.messenger = view at *
    generalize (ui.handle commit environment event).1 = action at hanswers
    generalize hnext : next.view = after at *
    -- a key that the modal ignores keeps the flag
    have hstays (hconfirms : ViewModel.Confirms view.activeModal.id) (hleft : event.key ≠ .left)
        (hright : event.key ≠ .right) : view.activeModal.confirmSelected = true ↔
          ui.view.activeModal.id = view.activeModal.id ∧
            (event.key = .right ∨ ui.view.activeModal.confirmSelected = true ∧
              event.key ≠ .left) := by
      rw [confirms_follows hfollows hconfirms]
      simp [hleft, hright]
    cases hanswers with
    | ignored hkey => exact hstays hconfirms (hkey hconfirms).1 (hkey hconfirms).2
    | recoveryLeft hid hkey =>
      refine hstays hconfirms ?_ ?_
      · rcases hkey with hkey | ⟨hkey, -⟩ <;> rw [hkey] <;> decide
      · rcases hkey with hkey | ⟨hkey, -⟩ <;> rw [hkey] <;> decide
    | leaving hid =>
      -- another modal was open, or none
      refine iff_of_false Bool.false_ne_true ?_
      rintro ⟨hexit, -⟩
      rcases hfollows.modal with hsame | ⟨hopened, -⟩
      · exact hid ((congrArg ActiveModal.id hsame).trans hexit)
      · have hnone : ModalId.none = .exit := hopened.symm.trans hexit
        cases hnone
    | cancelled hid hkey =>
      refine iff_of_false Bool.false_ne_true ?_
      rintro ⟨-, hright | ⟨-, hleft⟩⟩
      · exact absurd (hkey.symm.trans hright) (by decide)
      · exact hleft hkey
    | confirmed hid hkey =>
      have hsame := confirms_follows hfollows hid
      exact iff_of_true rfl ⟨(congrArg ActiveModal.id hsame).symm, .inl hkey⟩
    | closed => exact absurd rfl (confirms_ne_none hconfirms)
    | discarded => exact absurd rfl (confirms_ne_none hconfirms)
    | deleted => exact absurd rfl (confirms_ne_none hconfirms)
    | exited => exact absurd rfl (confirms_ne_none hconfirms)

/-- What a step does to the flag. -/
theorem step_confirms (hconfirms : ViewModel.Confirms (ui.step commit step).2.view.activeModal.id) :
    (ui.step commit step).2.view.activeModal.confirmSelected = true ↔
      ui.view.activeModal.id = (ui.step commit step).2.view.activeModal.id ∧
        (step.IsKey .right ∨ ui.view.activeModal.confirmSelected = true ∧ ¬step.IsKey .left) := by
  have hsame : ∀ {modal : ActiveModal}, modal = ui.view.activeModal →
    (modal.confirmSelected = true ↔
      ui.view.activeModal.id = modal.id ∧
        (False ∨ ui.view.activeModal.confirmSelected = true ∧ ¬False)) := by
    rintro _ rfl
    simp
  cases step with
  | key environment event => exact handle_confirms hconfirms
  | reportStorageFailure =>
    exact absurd hconfirms (by show ¬ViewModel.Confirms .error; simp [ViewModel.Confirms])
  | refresh => exact hsame (confirms_follows (ui.view.reconcileModel_follows _) hconfirms)
  | snapshot texts => exact hsame (confirms_follows (ui.view.prepareSnapshot_follows _) hconfirms)
  | setRadioReady ready => exact hsame rfl
  | setTransportStatus status => exact hsame rfl
  | change world => exact hsame rfl

/-- **The flag means what the keys say.** -/
theorem confirmSelected_iff (hstart : start.view.activeModal.confirmSelected = false)
    (steps : List (UiStep σ))
    (hconfirms : ViewModel.Confirms (start.run commit steps).view.activeModal.id) :
    (start.run commit steps).view.activeModal.confirmSelected = true ↔
      ConfirmedSince commit start steps (start.run commit steps).view.activeModal.id := by
  induction steps using List.reverseRecOn with
  | nil => exact iff_of_false (Bool.eq_false_iff.mp hstart) not_confirmedSince_nil
  | append_singleton steps step ih =>
    rw [confirmedSince_concat rfl]
    rw [run_concat] at hconfirms ⊢
    rw [step_confirms hconfirms]
    refine and_congr_right fun hid => ?_
    rw [← hid] at hconfirms ⊢
    rw [ih hconfirms]

theorem start_confirmSelected (world : MessengerWorld σ) (locale : Locale)
    (recoveryRequired skipTitle : Bool) :
    (Ui.start world locale recoveryRequired
      skipTitle).view.activeModal.confirmSelected = false := by
  rw [Ui.start, ViewModel.create]
  dsimp only
  split
  · rfl
  · rw [ViewModel.ensureTimelineSelection]
    split
    · rfl
    · rfl

/-! ### What is approved -/

theorem handle_approves (commit : Option (StateCommit σ)) (environment : UiEnvironment)
    (event : KeyEvent)
    (ui : Ui σ) :
    let action := (ui.handle commit environment event).1
    let modal := ui.view.activeModal
    (action.deleteDataApproved = true → event.key = .enter ∧
      (modal.id = .deleteData ∨ modal.id = .recovery) ∧
      modal.confirmSelected = true) ∧
    (action.exitApproved = true → event.key = .enter ∧ modal.id = .exit ∧
      modal.confirmSelected = true ∨
      modal.id = .recovery ∧ (event.key = .escape ∨ event.key = .enter ∧
        modal.confirmSelected = false)) := by
  intro action modal
  have hfollows := ui.view.reconcileModel_follows ui.world.messenger
  by_cases hnone : (ui.view.reconcileModel ui.world.messenger).activeModal.id = .none
  · have hquiet := @handle_quiet σ commit environment event ui hnone
    exact ⟨fun h => absurd (hquiet.delete.symm.trans h) Bool.false_ne_true,
      fun h => absurd (hquiet.exit.symm.trans h) Bool.false_ne_true⟩
  · have hanswers := @handle_answers σ commit environment event ui hnone
    change ViewModel.Answers _ _ _ action _ at hanswers
    generalize ui.view.reconcileModel ui.world.messenger = view at *
    generalize (ui.handle commit environment event).2.view = after at hanswers
    generalize action = action at *
    cases hanswers with
    | recoveryLeft hid hkey =>
      have hsame := confirms_follows hfollows (.inr (.inr (.inr hid)))
      rw [hsame] at hid hkey
      exact ⟨fun h => absurd h Bool.false_ne_true, fun _ => .inr ⟨hid, hkey⟩⟩
    | deleted hid hkey hconfirmed =>
      have hsame := confirms_follows hfollows (.inr (.inr hid))
      rw [hsame] at hid hconfirmed
      exact ⟨fun _ => ⟨hkey, hid, hconfirmed⟩, fun h => absurd h Bool.false_ne_true⟩
    | exited hid hkey hconfirmed =>
      have hsame := confirms_follows hfollows (.inr (.inl hid))
      rw [hsame] at hid hconfirmed
      exact ⟨fun h => absurd h Bool.false_ne_true, fun _ => .inl ⟨hkey, hid, hconfirmed⟩⟩
    | _ => exact ⟨fun h => absurd h Bool.false_ne_true, fun h => absurd h Bool.false_ne_true⟩

/-! ### The draft -/

/-- A step that is no key leaves the draft. -/
theorem step_draft (hkey : ∀ environment event, step ≠ .key environment event) :
    (ui.step commit step).2.view.draft = ui.view.draft ∧
      ((ui.step commit step).2.view.Composing ↔ ui.view.Composing) := by
  cases step with
  | key environment event => exact absurd rfl (hkey environment event)
  | refresh =>
    have hfollows := ui.view.reconcileModel_follows ui.world.messenger
    exact ⟨hfollows.draft, hfollows.composing⟩
  | snapshot texts =>
    have hfollows := ui.view.prepareSnapshot_follows ui.world.messenger
    exact ⟨hfollows.draft, hfollows.composing⟩
  | _ => exact ⟨rfl, Iff.rfl⟩

theorem dirty_reset (draft : Draft) : draft.reset.dirty = false := rfl

/-- A dirty draft is on the screen. -/
theorem step_composing (h : ui.view.draft.dirty = true → ui.view.Composing)
    (hdirty : (ui.step commit step).2.view.draft.dirty = true) :
    (ui.step commit step).2.view.Composing := by
  by_cases hkey : ∃ environment event, step = .key environment event
  · obtain ⟨environment, event, rfl⟩ := hkey
    rcases ui.handle_drafting commit environment event with ⟨hdraft, hnext⟩ | ⟨-, -, -, hnext⟩ |
      ⟨-, -, -, -, hnext⟩ | ⟨-, -, -, -, -, -, hnext⟩ | ⟨-, -, -, -, -, hnext⟩ | ⟨-, hdraft, -⟩
    · refine hnext (h ?_)
      rw [← hdraft]
      exact hdirty
    · exact hnext
    · exact hnext
    · exact hnext
    · exact hnext
    · rw [show (ui.step commit (.key environment event)).2.view.draft = _ from hdraft,
        dirty_reset] at hdirty
      cases hdirty
  · obtain ⟨hdraft, hcomposing⟩ := @step_draft σ commit ui step fun environment event heq =>
      hkey ⟨environment, event, heq⟩
    rw [hdraft] at hdirty
    exact hcomposing.mpr (h hdirty)

theorem run_composing (h : start.view.draft.dirty = true → start.view.Composing)
    (steps : List (UiStep σ))
    (hdirty : (start.run commit steps).view.draft.dirty = true) :
    (start.run commit steps).view.Composing := by
  induction steps using List.reverseRecOn with
  | nil => exact h hdirty
  | append_singleton steps step ih =>
    rw [run_concat] at hdirty ⊢
    exact step_composing ih hdirty

theorem start_draft (world : MessengerWorld σ) (locale : Locale)
    (recoveryRequired skipTitle : Bool) :
    (Ui.start world locale recoveryRequired skipTitle).view.draft = {} := by
  rw [Ui.start, ViewModel.create]
  dsimp only
  split
  · rw [ViewModel.ensureTimelineSelection]
    split
    · rfl
    · rfl
  · rw [ViewModel.ensureTimelineSelection]
    split
    · rfl
    · rfl

/-- A key has edited the draft on its screen: one call of the editor, or one peer less or
more. -/
def Edited (event : KeyEvent) (view next : ViewModel) : Prop :=
  (view.screen = .compose ∧ ∃ call, editOf event = some call ∧
    next.draft = { view.draft with body := (view.draft.body.call call).2 }) ∨
  (view.screen = .mentions ∧ event.key = .enter ∧ ∃ peer,
    next.draft = { view.draft with mentions := view.draft.mentions.erase peer } ∨
    next.draft = { view.draft with mentions := view.draft.mentions ++ [peer] })

/-- What happens to a dirty draft at a key. -/
theorem handle_dirty {environment : UiEnvironment} {event : KeyEvent}
    (hcomposing : ui.view.Composing)
    (hdirty : ui.view.draft.dirty = true) :
    let next := (ui.handle commit environment event).2
    next.view.draft = ui.view.draft ∨ Edited event ui.view next.view ∨
      ui.view.activeModal.id = .discard ∧ event.key = .enter ∧
        ui.view.activeModal.confirmSelected = true ∨
      ui.view.activeModal.id = .none ∧ ui.view.screen = .compose ∧ event.key = .enter ∧
        (ui.compose commit environment).1.error = .none := by
  intro next
  rcases ui.handle_drafting commit environment event with
    ⟨hdraft, -⟩ | ⟨hcall, hscreen, hdraft, -⟩ |
    ⟨peer, hkey, hscreen, hdraft, -⟩ | ⟨hkey, hscreen, -, -, -, hdraft, -⟩ | ⟨_, _, hscreen,
      -⟩ | ⟨hreason, -, -⟩
  · exact .inl hdraft
  · exact .inr (.inl (.inl ⟨hscreen, _, hcall, hdraft⟩))
  · exact .inr (.inl (.inr ⟨hscreen, hkey, peer, .inl hdraft⟩))
  · exact .inr (.inl (.inr ⟨hscreen, hkey, _, .inr hdraft⟩))
  · exact absurd hcomposing hscreen
  · rcases hreason with hclean | hreason
    · rw [hdirty] at hclean
      cases hclean
    · exact .inr (.inr hreason)

end Ui

/-- **Nothing is destroyed without an answer.**  In every run, whatever comes between the
keys: the data is deleted only at Enter in the DeleteData or the Recovery modal, and the
program is left only at Enter in the Exit modal, after a Right key in that same modal and
no Left key since, or at Escape or an unconfirmed Enter in the Recovery modal.  A step that
takes a dirty draft away, other than by editing it, is a successful compose or Enter in a
Discard modal that has been confirmed in the same way. -/
theorem destructive_actions_confirmed {σ : Type} (commit : Option (StateCommit σ))
    (world : MessengerWorld σ)
    (locale : Locale) (recoveryRequired skipTitle : Bool) (steps : List (UiStep σ)) :
    let start := Ui.start world locale recoveryRequired skipTitle
    let ui := start.run commit steps
    (∀ environment event,
      let action := (ui.handle commit environment event).1
      (action.deleteDataApproved = true → event.key = .enter ∧
        ∃ id, (id = .deleteData ∨ id = .recovery) ∧ ui.view.activeModal.id = id ∧
          start.ConfirmedSince commit steps id) ∧
      (action.exitApproved = true →
        event.key = .enter ∧ ui.view.activeModal.id = .exit ∧
          start.ConfirmedSince commit steps .exit ∨
        ui.view.activeModal.id = .recovery ∧
          (event.key = .escape ∨ event.key = .enter ∧
            ¬start.ConfirmedSince commit steps .recovery))) ∧
    (ui.view.draft.dirty = true → ∀ step,
      let next := (ui.step commit step).2
      next.view.draft = ui.view.draft ∨
      ∃ environment event, step = .key environment event ∧
        (Ui.Edited event ui.view next.view ∨
        event.key = .enter ∧ ui.view.activeModal.id = .discard ∧
          start.ConfirmedSince commit steps .discard ∨
        event.key = .enter ∧ ui.view.activeModal.id = .none ∧ ui.view.screen = .compose ∧
          (ui.compose commit environment).1.error = .none)) := by
  intro start ui
  have hconfirmed : ViewModel.Confirms ui.view.activeModal.id →
    (ui.view.activeModal.confirmSelected = true ↔
      start.ConfirmedSince commit steps ui.view.activeModal.id) :=
    Ui.confirmSelected_iff (Ui.start_confirmSelected world locale recoveryRequired skipTitle) steps
  refine ⟨fun environment event => ?_, fun hdirty step => ?_⟩
  · obtain ⟨hdelete, hexit⟩ := ui.handle_approves commit environment event
    refine ⟨fun h => ?_, fun h => ?_⟩
    · obtain ⟨hkey, hid, hselected⟩ := hdelete h
      exact ⟨hkey, _, hid, rfl, (hconfirmed (.inr (.inr hid))).mp hselected⟩
    · rcases hexit h with ⟨hkey, hid, hselected⟩ | ⟨hid, hkey⟩
      · have hsince := (hconfirmed (.inr (.inl hid))).mp hselected
        rw [hid] at hsince
        exact .inl ⟨hkey, hid, hsince⟩
      · have hsince := hconfirmed (.inr (.inr (.inr hid)))
        rw [hid] at hsince
        refine .inr ⟨hid, hkey.imp_right fun hkey => ⟨hkey.1, fun h => ?_⟩⟩
        exact Bool.false_ne_true (hkey.2.symm.trans (hsince.mpr h))
  · -- a dirty draft is on the screen in every state of a run
    have hcomposing : ui.view.Composing := by
      refine Ui.run_composing (fun hstart => ?_) steps hdirty
      rw [Ui.start_draft] at hstart
      cases hstart
    by_cases hkey : ∃ environment event, step = .key environment event
    · obtain ⟨environment, event, rfl⟩ := hkey
      rcases @Ui.handle_dirty σ commit ui environment event hcomposing hdirty with
        hkept | hedited | ⟨hid, henter, hselected⟩ | ⟨hid, hscreen, henter, hsent⟩
      · exact .inl hkept
      · exact .inr ⟨environment, event, rfl, .inl hedited⟩
      · have hsince := (hconfirmed (.inl hid)).mp hselected
        rw [hid] at hsince
        exact .inr ⟨environment, event, rfl, .inr (.inl ⟨henter, hid, hsince⟩)⟩
      · exact .inr ⟨environment, event, rfl, .inr (.inr ⟨henter, hid, hscreen, hsent⟩)⟩
    · exact .inl (Ui.step_draft fun environment event heq => hkey ⟨environment, event, heq⟩).1

/-! ### Drafts the messenger accepts -/

/-- A draft of an owner: few and distinct mentions of others, and a valid body. -/
structure Draft.Valid (own : Option InstallId) (draft : Draft) : Prop where
  few : draft.mentions.length ≤ kMaxMentions
  distinct : draft.mentions.Nodup
  others : ∀ peer ∈ draft.mentions, own ≠ some peer
  limit : draft.body.maximumBytes = kMaxPostBodyBytes
  stands : ∃ zipper, draft.body.Stands zipper

namespace Draft

variable {own : Option InstallId} {draft : Draft}

theorem Valid.call (h : draft.Valid own) (call : EditorCall) :
    Draft.Valid own { draft with body := (draft.body.call call).2 } := by
  obtain ⟨zipper, hstands⟩ := h.stands
  have hagrees := hstands.call call
  exact ⟨h.few, h.distinct, h.others, hagrees.limit.trans h.limit, _, hagrees.stands⟩

theorem Valid.remove (h : draft.Valid own) (peer : InstallId) :
    Draft.Valid own { draft with mentions := draft.mentions.erase peer } :=
  ⟨le_trans List.length_erase_le h.few, h.distinct.erase peer,
    fun other hother => h.others other (List.mem_of_mem_erase hother), h.limit, h.stands⟩

theorem Valid.add (h : draft.Valid own) {peer : InstallId} (hpeer : own ≠ some peer)
    (hnew : peer ∉ draft.mentions) (hroom : draft.mentions.length < kMaxMentions) :
    Draft.Valid own { draft with mentions := draft.mentions ++ [peer] } := by
  refine ⟨?_, ?_, fun other hother => ?_, h.limit, h.stands⟩
  · rw [List.length_append]
    exact hroom
  · rw [← List.concat_eq_append]
    exact h.distinct.concat hnew
  · rcases List.mem_append.mp hother with hother | hother
    · exact h.others other hother
    · rw [List.mem_singleton.mp hother]
      exact hpeer

/-- A new draft, perhaps with a mention. -/
theorem Valid.fresh (h : draft.Valid own) (replyTo : Option MessageId) {mention : Option InstallId}
    (hmention : ∀ peer ∈ mention, own ≠ some peer) :
    Draft.Valid own { draft.reset with replyTo := replyTo, mentions := mention.toList } := by
  have hcleared := h.call .clear
  refine ⟨?_, ?_, fun peer hpeer => hmention peer (Option.mem_toList.mp hpeer), hcleared.limit,
    hcleared.stands⟩
  · show mention.toList.length ≤ kMaxMentions
    cases mention
    · exact Nat.zero_le _
    · exact show 1 ≤ kMaxMentions by decide
  · cases mention
    · exact List.nodup_nil
    · exact List.nodup_singleton _

theorem Valid.reset (h : draft.Valid own) : draft.reset.Valid own :=
  @Valid.fresh own draft h none none fun _ hpeer => by cases hpeer

theorem valid_new (own : Option InstallId) : Draft.Valid own {} :=
  ⟨Nat.zero_le _, List.nodup_nil, List.forall_mem_nil _, rfl, ⟨[], []⟩, rfl, rfl, Nat.zero_le _⟩

/-- What a key leaves is valid again. -/
theorem Valid.drafting {messenger : Messenger} {event : KeyEvent} {mayReset : Prop}
    {view next : ViewModel}
    (h : view.draft.Valid (ViewModel.ownInstallId messenger))
    (hdrafting : Drafting messenger event mayReset view next) :
    next.draft.Valid (ViewModel.ownInstallId messenger) := by
  rcases hdrafting with ⟨hdraft, -⟩ | ⟨-, -, hdraft, -⟩ | ⟨peer, -, -, hdraft, -⟩ |
    ⟨-, -, hpeer, hnew, hroom, hdraft, -⟩ | ⟨replyTo, mention, -, hmention, hdraft, -⟩ | ⟨-,
      hdraft, -⟩ <;>
    rw [hdraft]
  · exact h
  · exact h.call _
  · exact h.remove peer
  · exact h.add hpeer hnew hroom
  · exact h.fresh replyTo hmention
  · exact h.reset

end Draft

/-- What `compose` says of a draft. -/
theorem Messenger.stage_error_draft {messenger : Messenger} {identity : Identity}
    {draft : PostDraft}
    {random : Option (Vector UInt8 16)} {now : Option Int64} {result : CommandResult}
    (h : messenger.stage identity draft random now = .error result) :
    (result.error = .invalidBody ∧ PostBody.create draft.body = .error result.textError) ∨
    draft.mentions.length > kMaxMentions ∨ ¬draft.mentions.Nodup ∨
    result.error ≠ .invalidBody ∧ result.error ≠ .tooManyMentions ∧
      result.error ≠ .duplicateMention := by
  have hmap : ∀ error, mapAvailability error ≠ .invalidBody ∧
    mapAvailability error ≠ .tooManyMentions ∧
      mapAvailability error ≠ .duplicateMention := by
    intro error
    cases error <;> decide
  have hinsert : ∀ error, mapInsertError error ≠ .invalidBody ∧
    mapInsertError error ≠ .tooManyMentions ∧
      mapInsertError error ≠ .duplicateMention := by
    intro error
    cases error <;> decide
  rw [Messenger.stage] at h
  rcases hbody : PostBody.create draft.body with textError | body
  · rw [hbody] at h
    cases h
    exact .inl ⟨rfl, rfl⟩
  rw [hbody] at h
  dsimp only at h
  split at h
  · exact .inr (.inl ‹_›)
  split at h
  · exact .inr (.inr (.inl ‹_›))
  refine .inr (.inr (.inr ?_))
  split at h
  · cases h
    decide
  split at h
  · cases h
    decide
  split at h
  · cases h
    decide
  split at h
  · cases h
    decide
  split at h
  · cases h
    exact hmap _
  split at h
  · cases h
    decide
  split at h
  · cases h
    decide
  split at h
  · cases h
    exact ⟨nofun, nofun, nofun⟩
  split at h
  · cases h
    exact hinsert _
  · cases h

/-- The answer of `compose` comes from the checks, or from the commit. -/
theorem MessengerState.compose_error_cases {σ : Type} (commit : Option (StateCommit σ))
    (world : MessengerWorld σ)
    (draft : PostDraft) (random : Option (Vector UInt8 16)) (now : Option Int64) :
    let result := ((MessengerState.compose (StateCommit.port commit) draft random now).run world).1
    result.error = .notInitialized ∨ result.error = .none ∨ result.error = .persistenceUnavailable ∨
      ∃ identity, world.messenger.stage identity draft random now = .error result := by
  unfold MessengerState.compose
  rw [MessengerCommand.run_messenger]
  rcases world.messenger.identity with _ | identity
  · exact .inl rfl
  dsimp only
  rcases hstage : world.messenger.stage identity draft random now with result | staged
  · exact .inr (.inr (.inr ⟨identity, hstage⟩))
  obtain ⟨accepted, after, hpersist, -⟩ :=
    MessengerCommand.persistIdentity_eq commit staged.identity world
  dsimp only
  rw [MessengerCommand.run_persist hpersist]
  cases accepted with
  | false => exact .inr (.inr (.inl rfl))
  | true =>
    obtain ⟨accepted, left, hpersist', -⟩ :=
      MessengerCommand.persistTimeline_eq commit staged.inserted.timeline
      (after.setIdentity staged.identity)
    let next (accepted : Bool) : StateM (MessengerWorld σ) CommandResult :=
      if accepted then do
        (StateCommit.port commit).setTimeline staged.inserted.timeline
        pure { messageId := some staged.post.messageId
               evictedMessageId := staged.inserted.evictedMessageId }
      else pure { error := .persistenceUnavailable }
    have hrun := congrArg (·.1.error) (MessengerCommand.run_persist hpersist' next)
    cases accepted with
    | false => exact .inr (.inr (.inl hrun))
    | true => exact .inr (.inl hrun)

/-- A body that is too long or no text is never told so of a valid one. -/
theorem PostBody.create_error_valid {value : Bytes} {error : TextError}
    (hvalid : isValidUtf8 value = true)
    (hlength : value.length ≤ kMaxPostBodyBytes) (h : PostBody.create value = .error error) :
    error ≠ .invalidUtf8 ∧ error ≠ .tooLong := by
  have herror : validateText value kMaxPostBodyBytes false = error := by
    rw [PostBody.create] at h
    split at h
    · cases h
    · exact Except.error.inj h
  obtain ⟨codepoints, hcodepoints⟩ := Option.isSome_iff_exists.mp hvalid
  rw [← herror, validateText, if_neg (Nat.not_lt.mpr hlength), hcodepoints]
  dsimp only
  split_ifs <;> decide

namespace Ui

variable {σ : Type} {commit : Option (StateCommit σ)} {start ui : Ui σ} {steps : List (UiStep σ)}
  {step : UiStep σ} {environment : UiEnvironment} {event : KeyEvent}

/-- `compose` uses up a sequence of the identity, and keeps its install id. -/
theorem compose_own : ViewModel.ownInstallId (ui.compose commit environment).2.messenger =
    ViewModel.ownInstallId ui.world.messenger := by
  obtain ⟨calls, hperforms, -⟩ := MessengerCommand.performs commit ui.world (.compose
    { body := ui.view.draft.body.text, mentions := ui.view.draft.mentions,
      replyTo := ui.view.draft.replyTo }
    environment.random environment.now)
  change MessengerCommand.Performs _ _ (ui.compose commit environment).1.error calls
    (ui.compose commit environment).2.messenger at hperforms
  generalize (ui.compose commit environment).1.error = error at hperforms
  generalize (ui.compose commit environment).2.messenger = after at hperforms ⊢
  rw [ViewModel.ownInstallId, ViewModel.ownInstallId]
  cases hperforms with
  | rejects => rfl
  | identityRefused => rfl
  | identitySaved hcommand => exact absurd rfl hcommand
  | timelineRefused => rfl
  | timelineSaved => rfl
  | sequenceLost hcommand hidentity hnext =>
    rw [hidentity, Option.map_some, Option.map_some, hnext.1]
  | composed hcommand hidentity hnext => rw [hidentity, Option.map_some, Option.map_some, hnext.1]

/-- The world changes only where the draft is sent. -/
theorem handleScreen_world : (ui.handleScreen commit environment event).2.world = ui.world ∨
    (ui.handleScreen commit environment event).2.world = (ui.compose commit environment).2 := by
  rw [handleScreen]
  split
  · exact .inl rfl
  · exact .inl rfl
  · exact .inl rfl
  · rw [handleCompose]
    split
    · dsimp only
      split
      · exact .inr rfl
      · exact .inr rfl
    · exact .inl rfl
  · exact .inl rfl
  · exact .inl rfl

theorem handle_own : ViewModel.ownInstallId (ui.handle commit environment event).2.world.messenger =
    ViewModel.ownInstallId ui.world.messenger := by
  rcases ui.handle_cases commit environment event with
    ⟨-, hhandle⟩ | ⟨-, -, hhandle⟩ | ⟨-, -, hhandle⟩ |
    ⟨-, hhandle⟩ <;> rw [hhandle]
  generalize ui.view.reconcileModel ui.world.messenger = view
  rcases @handleScreen_world σ commit { ui with view := view } environment event with
    hworld | hworld <;> rw [hworld]
  exact compose_own

/-- The draft along a run with a fixed identity. -/
theorem run_valid (hstart : start.view.draft.Valid (ViewModel.ownInstallId start.world.messenger))
    (hidentity : ∀ world, .change world ∈ steps →
      ViewModel.ownInstallId world.messenger = ViewModel.ownInstallId start.world.messenger) :
    ViewModel.ownInstallId (start.run commit steps).world.messenger =
        ViewModel.ownInstallId start.world.messenger ∧
      (start.run commit steps).view.draft.Valid (ViewModel.ownInstallId start.world.messenger) := by
  induction steps using List.reverseRecOn with
  | nil => exact ⟨rfl, hstart⟩
  | append_singleton steps step ih =>
    obtain ⟨hown, hvalid⟩ := ih fun world hworld => hidentity world (List.mem_append_left _ hworld)
    rw [run_concat]
    generalize start.run commit steps = ui at *
    rw [← hown] at hvalid ⊢
    by_cases hkey : ∃ environment event, step = .key environment event
    · obtain ⟨environment, event, rfl⟩ := hkey
      exact ⟨handle_own, hvalid.drafting (ui.handle_drafting commit environment event)⟩
    · have hdraft := (@step_draft σ commit ui step fun environment event heq =>
        hkey ⟨environment, event, heq⟩).1
      rw [hdraft]
      refine ⟨?_, hvalid⟩
      cases step with
      | key environment event => exact absurd ⟨environment, event, rfl⟩ hkey
      | change world => exact (hidentity world (by simp)).trans hown.symm
      | _ => rfl

/-- What `compose` finds wrong with a valid draft. -/
theorem compose_error {own : Option InstallId} (hvalid : ui.view.draft.Valid own) :
    let result := (ui.compose commit environment).1
    result.error ≠ .tooManyMentions ∧ result.error ≠ .duplicateMention ∧
      (result.error = .invalidBody → result.textError ≠ .invalidUtf8 ∧
        result.textError ≠ .tooLong) := by
  obtain ⟨zipper, hstands⟩ := hvalid.stands
  have hutf8 : isValidUtf8 ui.view.draft.body.text = true := by
    rw [hstands.text]
    exact isValidUtf8_encode _
  have hlength : ui.view.draft.body.text.length ≤ kMaxPostBodyBytes :=
    hvalid.limit ▸ hstands.bounded
  intro result
  rcases MessengerState.compose_error_cases commit ui.world
    { body := ui.view.draft.body.text, mentions := ui.view.draft.mentions,
      replyTo := ui.view.draft.replyTo }
    environment.random environment.now with herror | herror | herror | ⟨identity, hstage⟩
  · change result.error = _ at herror
    rw [herror]
    exact ⟨nofun, nofun, nofun⟩
  · change result.error = _ at herror
    rw [herror]
    exact ⟨nofun, nofun, nofun⟩
  · change result.error = _ at herror
    rw [herror]
    exact ⟨nofun, nofun, nofun⟩
  · change _ = Except.error result at hstage
    rcases Messenger.stage_error_draft hstage with
      ⟨herror, hbody⟩ | hmany | hduplicate | ⟨hbody, hmany, hduplicate⟩
    · rw [herror]
      exact ⟨nofun, nofun, fun _ => PostBody.create_error_valid hutf8 hlength hbody⟩
    · exact absurd hvalid.few (Nat.not_le.mpr hmany)
    · exact absurd hvalid.distinct hduplicate
    · exact ⟨hmany, hduplicate, fun h => absurd h hbody⟩

/-- A compose that fails leaves the draft. -/
theorem handle_failed (hmodal : ui.view.activeModal.id = .none)
    (hscreen : ui.view.screen = .compose)
    (hkey : event.key = .enter) (herror : (ui.compose commit environment).1.error ≠ .none) :
    (ui.handle commit environment event).2 =
      ⟨(ui.view.reconcileModel ui.world.messenger).showCommandError
        (ui.compose commit environment).1.error,
        (ui.compose commit environment).2⟩ := by
  have hfollows := ui.view.reconcileModel_follows ui.world.messenger
  rw [handle]
  generalize ui.view.reconcileModel ui.world.messenger = view at *
  obtain ⟨hview, -, hsame⟩ := hfollows.screen_eq (by rw [hscreen]; decide)
  rw [hscreen] at hview
  have hcompose : ({ ui with view := view } : Ui σ).compose commit environment =
      ui.compose commit environment := by
    rw [compose, compose, hfollows.draft]
  have hshortcut : view.handleGlobalShortcut ui.world.messenger event = ({}, view) := by
    rw [ViewModel.handleGlobalShortcut, if_pos (.inl hview)]
  rw [hsame, if_neg (not_not.mpr hmodal), if_neg (by rw [hkey]; decide), hshortcut]
  show (({ ui with view := view } : Ui σ).handleScreen commit environment event).2 = _
  rw [handleScreen]
  simp only [hview]
  rw [handleCompose, if_pos hkey]
  simp only [hcompose]
  rw [if_pos herror]

end Ui

/-- **The draft stays valid** as long as the device keeps its install id: at most four
mentions, all distinct and none of the owner, and a valid body of at most 160 bytes.  So a
compose never complains about any of these, and one that fails leaves the draft as it is. -/
theorem draft_stays_valid {σ : Type} (commit : Option (StateCommit σ)) (world : MessengerWorld σ)
    (locale : Locale) (recoveryRequired skipTitle : Bool) (steps : List (UiStep σ))
    (hidentity : ∀ other, .change other ∈ steps →
      other.messenger.identity.map Identity.installId =
        world.messenger.identity.map Identity.installId) :
    let ui := (Ui.start world locale recoveryRequired skipTitle).run commit steps
    let draft := ui.view.draft
    draft.mentions.length ≤ 4 ∧ draft.mentions.Nodup ∧
    (∀ identity, ui.world.messenger.identity = some identity →
      identity.installId ∉ draft.mentions) ∧
    isValidUtf8 draft.body.text = true ∧ draft.body.text.length ≤ 160 ∧
    ∀ environment,
      let result := (ui.compose commit environment).1
      result.error ≠ .tooManyMentions ∧ result.error ≠ .duplicateMention ∧
      (result.error = .invalidBody → result.textError ≠ .invalidUtf8 ∧
        result.textError ≠ .tooLong) ∧
      ∀ event, event.key = .enter → ui.view.activeModal.id = .none → ui.view.screen = .compose →
        result.error ≠ .none →
        (ui.handle commit environment event).2.world = (ui.compose commit environment).2 ∧
        (ui.handle commit environment event).2.view.draft = draft := by
  intro ui draft
  have hstart : (Ui.start world locale recoveryRequired skipTitle).view.draft.Valid
      (ViewModel.ownInstallId world.messenger) := by
    rw [Ui.start_draft]
    exact Draft.valid_new _
  obtain ⟨hown, hvalid⟩ := @Ui.run_valid σ commit
    (Ui.start world locale recoveryRequired skipTitle) steps hstart hidentity
  obtain ⟨zipper, hstands⟩ := hvalid.stands
  refine ⟨hvalid.few, hvalid.distinct, fun identity hsome hmem => ?_, ?_, ?_, fun environment => ?_⟩
  · refine hvalid.others _ hmem ?_
    rw [← hown, ViewModel.ownInstallId, hsome, Option.map_some]
  · have htext := hstands.text
    rw [htext]
    exact isValidUtf8_encode _
  · have hlength := hstands.bounded
    rwa [hvalid.limit] at hlength
  · obtain ⟨hmany, hduplicate, hbody⟩ := @Ui.compose_error σ commit ui environment _ hvalid
    refine ⟨hmany, hduplicate, hbody, fun event hkey hmodal hscreen herror => ?_⟩
    rw [Ui.handle_failed hmodal hscreen hkey herror]
    exact ⟨rfl, (ui.view.reconcileModel_follows ui.world.messenger).draft⟩

def ownWorld (timeline : Timeline) : MessengerWorld Unit :=
  ⟨⟨some ⟨samplePost.senderId, samplePost.senderUserId, 1⟩, timeline⟩, (), []⟩

/-- A post is received, and a draft about it begun. -/
theorem draft_stays_valid_begun :
    let steps := [.change (ownWorld singleTimeline), .key {} ⟨.character, 'm'.toNat⟩,
      .key {} ⟨.character, 'a'.toNat⟩]
    let ui := (Ui.start (ownWorld Timeline.empty) .english false true).run none steps
    ui.view.draft.body.text = [0x61] ∧ isValidUtf8 ui.view.draft.body.text = true := by
  refine ⟨by decide +kernel, ?_⟩
  refine (draft_stays_valid none (ownWorld Timeline.empty) .english false true _ ?_).2.2.2.1
  intro other hother
  simp only [List.mem_cons, reduceCtorEq, UiStep.change.injEq, List.not_mem_nil, or_false] at hother
  rw [hother]
  rfl

end Lora
