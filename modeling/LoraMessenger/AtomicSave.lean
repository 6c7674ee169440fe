/-
Saving the settings is atomic.

A load reads the settings file as it was left by a save, or as a loss of power
left it; `Holds` says which record is stored, and what a loss of power may bring
back instead.

* `settings_save_atomic` — a load after a save finds the old record or the new
  one, and which of them if the save says so;
* `settings_survive` — over any number of saves, failures and losses of power;
* `save_simulates` — the atomic store of the session model is what the calls of
  a save amount to.
-/
import LoraMessenger.AtomicSettings
import LoraMessenger.Storage

namespace Lora.AtomicSettings

open Crash Posix

/-! ### What a load then finds -/

/-- A reply that does not make a read fail. -/
def Calm : Reply → Prop
  | .done => True
  | .short count => 0 < count
  | .failed errno => errno = eIntr
  | .crash => False

/-- A load whose own calls do not fail. -/
structure LoadCalls.Calm (calls : LoadCalls) : Prop where
  opened : calls.opened = none
  status : calls.status = none
  reads : ∀ reply ∈ calls.reads, AtomicSettings.Calm reply
  closed : calls.closed = none

theorem readLoop_calm {turns : ℕ} {replies : List Reply} {rest contents : Bytes}
    (hturns : replies.length + rest.length < turns) (hcalm : ∀ reply ∈ replies, Calm reply)
    (hsize : contents.length + rest.length ≤ kMaxSettingsJsonBytes) :
    readLoop turns replies rest contents = .ok (contents ++ rest) := by
  induction turns generalizing replies rest contents with
  | zero => omega
  | succ turns ih =>
    have htake (count : ℕ) (hcount : 0 < count) (later : List Reply)
        (hlater : ∀ reply ∈ later, Calm reply) (hlength : later.length ≤ replies.length) :
        (let size := min count (min 4096 rest.length)
          if size = 0 then Except.ok contents
          else if contents.length > kMaxSettingsJsonBytes - size then
            .error { error := .decodeFailed, jsonError := some .tooLarge }
          else readLoop turns later (rest.drop size) (contents ++ rest.take size)) =
          (Except.ok (contents ++ rest) : Except SettingsStoreFailure Bytes) := by
      rcases rest with _ | ⟨byte, rest⟩
      · simp
      simp only [List.length_cons] at hturns hsize ⊢
      rw [if_neg (by omega), if_neg (by omega), ih]
      · rw [List.append_assoc, List.take_append_drop]
      · simp only [List.length_drop, List.length_cons]
        omega
      · exact hlater
      · simp only [List.length_append, List.length_take, List.length_drop, List.length_cons]
        omega
    rcases replies with _ | ⟨reply, replies⟩
    · exact htake 4096 (by decide) [] (by simp) (Nat.le_refl _)
    obtain ⟨hreply, hreplies⟩ := List.forall_mem_cons.mp hcalm
    have hshorter : replies.length ≤ (reply :: replies).length := by simp
    rcases reply with _ | count | errno | _
    · exact htake 4096 (by decide) replies hreplies hshorter
    · exact htake count hreply replies hreplies hshorter
    · have hinterrupted : errno = eIntr := hreply
      simp only [readLoop, hinterrupted, if_true]
      refine ih ?_ hreplies hsize
      rw [List.length_cons] at hturns
      omega
    · exact hreply.elim

/-- What a load answers, if nothing goes wrong with the load itself. -/
def LoadsAs (store : AtomicSettingsStore) (volume : Volume Name)
    (answer : Except SettingsStoreFailure SettingsRecord) : Prop :=
  ∀ calls : LoadCalls, calls.Calm → store.load calls volume = answer

/-- The answer for a record that was stored, or for none. -/
def answer : Option SettingsRecord → Except SettingsStoreFailure SettingsRecord
  | none => .error { error := .notFound, systemError := eNoEnt }
  | some record => .ok record

variable {store : AtomicSettingsStore} {volume : Volume Name}

theorem loadsAs_none (hpath : store.validPath) (h : volume.find .final = none) :
    LoadsAs store volume (answer none) := by
  intro calls _
  simp [AtomicSettingsStore.load, hpath, h, answer]

theorem loadsAs_stored (hpath : store.validPath) {text : Bytes} {record : SettingsRecord}
    (h : volume.find .final = some (stored text)) (htext : parseSettingsJson text = .ok record) :
    LoadsAs store volume (answer (some record)) := by
  intro calls hcalm
  have hsize : text.length ≤ kMaxSettingsJsonBytes := by
    by_contra hlong
    rw [parseSettingsJson, if_pos (by omega)] at htext
    cases htext
  have hread : readLoop (calls.reads.length + text.length + 1) calls.reads text [] = .ok text :=
    readLoop_calm (by omega) hcalm.reads (by simpa using hsize)
  simp [AtomicSettingsStore.load, hpath, h, hcalm.opened, hcalm.status, hcalm.closed, stored, hread,
    htext, answer, Nat.not_lt.mpr hsize]

/-- The text of a record, or no text for none. -/
def Tells (text : Option Bytes) (record : Option SettingsRecord) : Prop :=
  text.map parseSettingsJson = record.map .ok

/-- The record is stored, or none is; a loss of power may bring back one of the older
ones, of which there are none if it is stored for good. -/
def Holds (volume : Volume Name) (record : Option SettingsRecord)
    (older : List (Option SettingsRecord)) : Prop :=
  ∃ text earlier, Stands text earlier volume ∧ Tells text record ∧
    ∀ other ∈ earlier, ∃ record ∈ older, Tells other record

/-- Loading finds one of `now`, and after a loss of power one of `later`. -/
def Finds (store : AtomicSettingsStore) (volume : Volume Name)
    (now later : List (Option SettingsRecord)) : Prop :=
  (∃ record ∈ now, LoadsAs store volume (answer record)) ∧
    ∀ found, volume.Recovers found → ∃ record ∈ later, LoadsAs store found (answer record)

section Holds

variable {found : Volume Name} {text : Option Bytes} {earlier : List (Option Bytes)}
  {record : Option SettingsRecord} {older : List (Option SettingsRecord)}

theorem Stands.find (h : Stands text earlier volume) : volume.find .final = text.map stored := by
  by_cases hmissing : volume.directory = .missing
  · rw [Volume.find_missing hmissing, h.absent hmissing]
    rfl
  · rw [Volume.find_eq hmissing, h.current hmissing]

/-- Of synced texts one comes back, and then it is there for good. -/
theorem Stands.recovers (h : Stands text earlier volume) (hrecovers : volume.Recovers found) :
    ∃ other ∈ text :: earlier, Stands other [] found := by
  cases hrecovers with
  | lost hunsettled =>
    refine ⟨none, h.unsettled hunsettled, fun hpresent => absurd rfl hpresent,
      fun hpresent => absurd rfl hpresent, fun _ => rfl, fun _ => List.mem_cons_self ..⟩
  | kept hpresent hentries =>
    have hnode : ∀ node ∈ (volume.entries .final).current :: (volume.entries .final).earlier,
        ∃ other ∈ text :: earlier, node = other.map stored := by
      intro node hnode
      rcases List.mem_cons.mp hnode with rfl | hnode
      · exact ⟨text, List.mem_cons_self .., h.current hpresent⟩
      · obtain ⟨other, hother, hsame⟩ := h.unsynced hpresent node hnode
        exact ⟨other, List.mem_cons_of_mem _ hother, hsame⟩
    -- An entry comes back with one of its nodes, whose file was synced before the rename.
    have hmem := (hentries .final).mem fun file hfile => by
      obtain ⟨text, -, hnode⟩ := hnode _ hfile
      rcases text with _ | text
      · cases hnode
      · cases hnode
        rfl
    obtain ⟨other, hother, hsame⟩ := hnode _ hmem
    refine ⟨other, hother, fun _ => hsame, fun _ node hearlier => ?_, ?_,
      fun hunsettled => absurd rfl hunsettled⟩
    · rw [(hentries .final).earlier] at hearlier
      cases hearlier
    · rintro ⟨⟩

/-- What is stored is loaded. -/
theorem Holds.loads (hpath : store.validPath) (h : Holds volume record older) :
    LoadsAs store volume (answer record) := by
  obtain ⟨text, earlier, hstands, htext, -⟩ := h
  have hfind := hstands.find
  rcases text with _ | text <;> rcases record with _ | record
  · exact loadsAs_none hpath hfind
  · cases htext
  · cases htext
  · exact loadsAs_stored hpath hfind (Option.some.inj htext)

theorem Holds.recovers (h : Holds volume record older) (hrecovers : volume.Recovers found) :
    ∃ other ∈ record :: older, Holds found other [] := by
  obtain ⟨text, earlier, hstands, htext, hearlier⟩ := h
  obtain ⟨other, hother, hfound⟩ := hstands.recovers hrecovers
  rcases List.mem_cons.mp hother with rfl | hother
  · exact ⟨record, List.mem_cons_self .., other, [], hfound, htext, List.forall_mem_nil _⟩
  · obtain ⟨back, hback, htells⟩ := hearlier other hother
    exact ⟨back, List.mem_cons_of_mem _ hback, other, [], hfound, htells, List.forall_mem_nil _⟩

theorem Holds.finds (hpath : store.validPath) (h : Holds volume record older) :
    Finds store volume [record] (record :: older) := by
  refine ⟨⟨record, List.mem_singleton_self _, h.loads hpath⟩, fun found hrecovers => ?_⟩
  obtain ⟨other, hother, hfound⟩ := h.recovers hrecovers
  exact ⟨other, hother, hfound.loads hpath⟩

theorem Finds.mono {now now' later later' : List (Option SettingsRecord)}
    (h : Finds store volume now later) (hnow : now ⊆ now') (hlater : later ⊆ later') :
    Finds store volume now' later' := by
  obtain ⟨⟨record, hrecord, hloads⟩, hfound⟩ := h
  refine ⟨⟨record, hnow hrecord, hloads⟩, fun found hrecovers => ?_⟩
  obtain ⟨other, hother, hloads⟩ := hfound found hrecovers
  exact ⟨other, hlater hother, hloads⟩

end Holds

/-! ### One save -/

section Save

variable {old : Option SettingsRecord} {older : List (Option SettingsRecord)}
  {settings : SettingsRecord}

/-- A save was cut short: the old record is stored as before, or the new one in its
place. -/
def HoldsEither (old : Option SettingsRecord) (older : List (Option SettingsRecord))
    (settings : SettingsRecord) (left : Volume Name) : Prop :=
  Holds left old older ∨ Holds left (some settings) (old :: older)

theorem HoldsEither.finds {left : Volume Name} (hpath : store.validPath)
    (h : HoldsEither old older settings left) :
    Finds store left [old, some settings] (old :: some settings :: older) := by
  obtain h | h := h
  · exact (h.finds hpath).mono (by simp) (by simp)
  · refine (h.finds hpath).mono (by simp) ?_
    simp only [List.cons_subset, List.mem_cons, true_or, or_true, true_and]
    exact fun record hrecord => List.mem_cons_of_mem _ (List.mem_cons_of_mem _ hrecord)

/-- What every save leaves, whichever of its calls fails or is the last one. -/
theorem wp_save_holds (store : AtomicSettingsStore)
    {m : Machine (Process SaveLocals) (Volume Name)} (hflag : m.memory.locals.finalReplaced = false)
    (hold : Holds m.durable old older) (hzero : settings.generation ≠ 0)
    (hrange : settings.generation < 2 ^ 64) :
    wp (store.save settings).run
      (fun result m' =>
        match result with
        | .error failure => HoldsEither old older settings m'.durable ∧
          (failure.finalReplaced = false → Holds m'.durable old older)
        | .ok () => Holds m'.durable (some settings) [])
      (HoldsEither old older settings) m := by
  obtain ⟨text, earlier, hstands, htext, hearlier⟩ := hold
  have hnew : Tells (some (settingsText settings)) (some settings) :=
    congrArg some (parseSettingsJson_settingsText hzero hrange)
  have hcut (left : Volume Name) (h : Cut text earlier (settingsText settings) left) :
      HoldsEither old older settings left := by
    obtain h | h := h
    · exact .inl ⟨text, earlier, h, htext, hearlier⟩
    · refine .inr ⟨_, _, h, hnew, List.forall_mem_cons.mpr ⟨?_, fun other hother => ?_⟩⟩
      · exact ⟨old, List.mem_cons_self .., htext⟩
      · obtain ⟨record, hrecord, htells⟩ := hearlier other hother
        exact ⟨record, List.mem_cons_of_mem _ hrecord, htells⟩
  -- Once the new text is in place, the one that was stored counts as older.
  refine wp_mono (wp_save store hzero hrange hstands hflag) ?_ hcut
  rintro (failure | ⟨⟩) m' h
  · exact ⟨hcut _ h.1, fun hfailure => ⟨text, earlier, h.2 hfailure, htext, hearlier⟩⟩
  · exact ⟨_, [], h, hnew, List.forall_mem_nil _⟩

/-- A save is atomic: whatever call fails or is the last one, and whether or not
the power is lost, a load finds the old record or the new one.  A failure that
does not say that the file was replaced has left the old one.  After a success the
new one is there for good.  Where a loss of power could have brought back something
older before the save (`older` is not empty), it still can until a save succeeds. -/
theorem settings_save_atomic {store : AtomicSettingsStore} (hpath : store.validPath)
    {volume : Volume Name} {old : Option SettingsRecord} {older : List (Option SettingsRecord)}
    (hold : Holds volume old older) {settings : SettingsRecord} (hzero : settings.generation ≠ 0)
    (hrange : settings.generation < 2 ^ 64) (replies : List Reply) :
    let outcome := (store.save settings).run ⟨⟨replies, {}⟩, volume, []⟩
    (∀ left, outcome = .crashed left →
      Finds store left [old, some settings] (old :: some settings :: older)) ∧
    (∀ failure m, outcome = .done (.error failure) m →
      Finds store m.durable [old, some settings] (old :: some settings :: older) ∧
      (failure.finalReplaced = false → Finds store m.durable [old] (old :: older))) ∧
    (∀ m, outcome = .done (.ok ()) m →
      Finds store m.durable [some settings] [some settings] ∧
      Holds m.durable (some settings) []) := by
  intro outcome
  have hrun := wp_save_holds store (m := ⟨⟨replies, {}⟩, volume, []⟩) rfl hold hzero hrange
  refine ⟨fun left houtcome => ?_, fun failure m houtcome => ?_, fun m houtcome => ?_⟩
  all_goals
    rw [wp, show (store.save settings).run ⟨⟨replies, {}⟩, volume, []⟩ = _ from houtcome] at hrun
  · exact HoldsEither.finds hpath hrun
  · exact ⟨hrun.1.finds hpath, fun hfailure => (hrun.2 hfailure).finds hpath⟩
  · exact ⟨Holds.finds hpath hrun, hrun⟩

def sampleSettings (generation : ℕ) : SettingsRecord :=
  ⟨generation, samplePost.senderId, samplePost.senderUserId, 5, .japanese, true, false⟩

abbrev SaveOutcome :=
  Outcome (Process SaveLocals) (Volume Name) (Except SettingsStoreFailure Unit)

def saved : SaveOutcome → Bool
  | .done (.ok ()) _ => true
  | .done (.error _) _ => false
  | .crashed _ => false

def cutShort : SaveOutcome → Bool
  | .done _ _ => false
  | .crashed _ => true

theorem saved_iff {outcome : SaveOutcome} :
    saved outcome = true ↔ ∃ m, outcome = .done (.ok ()) m := by
  rcases outcome with ⟨failure | ⟨⟩, m⟩ | left <;> simp [saved]

theorem cutShort_iff {outcome : SaveOutcome} :
    cutShort outcome = true ↔ ∃ left, outcome = .crashed left := by
  rcases outcome with ⟨result, m⟩ | left <;> simp [cutShort]

/-- The settings were never saved, and there is no directory for them. -/
def freshVolume : Volume Name := ⟨.missing, fun _ => ⟨none, []⟩⟩

theorem holds_freshVolume : Holds freshVolume none [] := by
  refine ⟨none, [], ⟨fun hpresent => absurd rfl hpresent, fun hpresent => absurd rfl hpresent,
    fun _ => rfl, fun _ => List.mem_cons_self ..⟩, rfl, List.forall_mem_nil _⟩

/-- The power goes after the rename and before the directory is synced. -/
def sampleReplies : List Reply :=
  [.done, .done, .done, .done, .done, .short 10, .failed eIntr, .done, .done, .done, .done, .crash]

def sampleStore : AtomicSettingsStore := { finalPath := ascii "/data/settings.json" }

def firstSave : SaveOutcome :=
  (sampleStore.save (sampleSettings 1)).run ⟨⟨[], {}⟩, freshVolume, []⟩

def secondSave : SaveOutcome :=
  (sampleStore.save (sampleSettings 2)).run ⟨⟨sampleReplies, {}⟩, firstSave.left, []⟩

theorem settings_save_atomic_sampleReplies :
    (∃ m, firstSave = .done (.ok ()) m ∧
      Finds sampleStore m.durable [some (sampleSettings 1)] [some (sampleSettings 1)]) ∧
    ∃ left, secondSave = .crashed left ∧
      Finds sampleStore left [some (sampleSettings 1), some (sampleSettings 2)]
        [some (sampleSettings 1), some (sampleSettings 2)] := by
  have hpath : sampleStore.validPath := by decide +kernel
  have hfirst : saved firstSave = true := by decide +kernel
  have hsecond : cutShort secondSave = true := by decide +kernel
  obtain ⟨m, hm⟩ := saved_iff.mp hfirst
  obtain ⟨left, hleft⟩ := cutShort_iff.mp hsecond
  obtain ⟨-, -, hsaved⟩ := settings_save_atomic hpath holds_freshVolume
    (show (sampleSettings 1).generation ≠ 0 by decide)
    (show (sampleSettings 1).generation < 2 ^ 64 by decide) []
  obtain ⟨hfinds, hholds⟩ := hsaved m hm
  have hdurable : firstSave.left = m.durable := by rw [hm, Outcome.left]
  rw [← hdurable] at hholds
  obtain ⟨hcut, -⟩ := settings_save_atomic hpath hholds
    (show (sampleSettings 2).generation ≠ 0 by decide)
    (show (sampleSettings 2).generation < 2 ^ 64 by decide) sampleReplies
  exact ⟨⟨m, hm, hfinds⟩, left, hleft, hcut left hleft⟩

end Save

/-! ### Any number of saves -/

/-- What saves and losses of power have made of a volume.  `last` is the record that was
saved last, and `begun` are those whose saves were cut short or failed since. -/
inductive Past (store : AtomicSettingsStore) (first : Volume Name)
    (initial : Option SettingsRecord) :
    Option SettingsRecord → List SettingsRecord → Volume Name → Prop
  | start : Past store first initial initial [] first
  | saved {last : Option SettingsRecord} {begun : List SettingsRecord} {volume : Volume Name}
    {settings : SettingsRecord} {replies : List Reply}
    {m : Machine (Process SaveLocals) (Volume Name)}
    (h : Past store first initial last begun volume)
    (hzero : settings.generation ≠ 0) (hrange : settings.generation < 2 ^ 64)
    (hrun : (store.save settings).run ⟨⟨replies, {}⟩, volume, []⟩ = .done (.ok ()) m) :
    Past store first initial (some settings) [] m.durable
  | failed {last : Option SettingsRecord} {begun : List SettingsRecord} {volume : Volume Name}
    {settings : SettingsRecord} {replies : List Reply} {failure : SettingsStoreFailure}
    {m : Machine (Process SaveLocals) (Volume Name)}
    (h : Past store first initial last begun volume)
    (hzero : settings.generation ≠ 0) (hrange : settings.generation < 2 ^ 64)
    (hrun : (store.save settings).run ⟨⟨replies, {}⟩, volume, []⟩ = .done (.error failure) m) :
    Past store first initial last (settings :: begun) m.durable
  | crashed {last : Option SettingsRecord} {begun : List SettingsRecord} {volume : Volume Name}
    {settings : SettingsRecord} {replies : List Reply} {left : Volume Name}
    (h : Past store first initial last begun volume)
    (hzero : settings.generation ≠ 0) (hrange : settings.generation < 2 ^ 64)
    (hrun : (store.save settings).run ⟨⟨replies, {}⟩, volume, []⟩ = .crashed left) :
    Past store first initial last (settings :: begun) left
  | powerLoss {last : Option SettingsRecord} {begun : List SettingsRecord}
    {volume found : Volume Name} (h : Past store first initial last begun volume)
    (hrecovers : volume.Recovers found) : Past store first initial last begun found

section Past

variable {first : Volume Name} {initial last : Option SettingsRecord} {begun : List SettingsRecord}

/-- One of the candidates is stored, and no others can come back. -/
def HoldsOne (candidates : List (Option SettingsRecord)) (volume : Volume Name) : Prop :=
  ∃ record older, Holds volume record older ∧ record :: older ⊆ candidates

theorem HoldsEither.one {candidates : List (Option SettingsRecord)} {old : Option SettingsRecord}
    {older : List (Option SettingsRecord)} {settings : SettingsRecord} {left : Volume Name}
    (h : HoldsEither old older settings left) (hsubset : old :: older ⊆ candidates)
    (hsettings : some settings ∈ candidates) : HoldsOne candidates left := by
  obtain h | h := h
  · exact ⟨old, older, h, hsubset⟩
  · exact ⟨some settings, old :: older, h, List.cons_subset.mpr ⟨hsettings, hsubset⟩⟩

theorem Past.holds (hfirst : Holds first initial [])
    (h : Past store first initial last begun volume) :
    HoldsOne (last :: begun.map some) volume := by
  -- a save that does not succeed adds its record to the candidates
  have hmore {last : Option SettingsRecord} {begun : List SettingsRecord}
      {settings : SettingsRecord} {records : List (Option SettingsRecord)}
      (h : records ⊆ last :: begun.map some) :
      records ⊆ last :: (settings :: begun).map some := by
    refine List.Subset.trans h (List.cons_subset_cons _ ?_)
    rw [List.map_cons]
    exact List.subset_cons_self ..
  have hbegun {last : Option SettingsRecord} {begun : List SettingsRecord}
      {settings : SettingsRecord} : some settings ∈ last :: (settings :: begun).map some := by
    rw [List.map_cons]
    exact List.mem_cons_of_mem _ (List.mem_cons_self ..)
  induction h with
  | start => exact ⟨initial, [], hfirst, List.cons_subset_cons _ (List.nil_subset _)⟩
  | @saved last begun volume settings replies m h hzero hrange hrun ih =>
    obtain ⟨record, older, hholds, hsubset⟩ := ih
    have hwp := wp_save_holds store (m := ⟨⟨replies, {}⟩, volume, []⟩) rfl hholds hzero hrange
    rw [wp, hrun] at hwp
    exact ⟨_, [], hwp, List.cons_subset_cons _ (List.nil_subset _)⟩
  | @failed last begun volume settings replies failure m h hzero hrange hrun ih =>
    obtain ⟨record, older, hholds, hsubset⟩ := ih
    have hwp := wp_save_holds store (m := ⟨⟨replies, {}⟩, volume, []⟩) rfl hholds hzero hrange
    rw [wp, hrun] at hwp
    exact hwp.1.one (hmore hsubset) hbegun
  | @crashed last begun volume settings replies left h hzero hrange hrun ih =>
    obtain ⟨record, older, hholds, hsubset⟩ := ih
    have hwp := wp_save_holds store (m := ⟨⟨replies, {}⟩, volume, []⟩) rfl hholds hzero hrange
    rw [wp, hrun] at hwp
    exact HoldsEither.one hwp (hmore hsubset) hbegun
  | powerLoss h hrecovers ih =>
    obtain ⟨record, older, hholds, hsubset⟩ := ih
    obtain ⟨other, hother, hfound⟩ := hholds.recovers hrecovers
    exact ⟨other, [], hfound, List.cons_subset.mpr ⟨hsubset hother, List.nil_subset _⟩⟩

/-- Settings survive: over any number of saves, whatever calls of them fail or are the
last ones, and wherever the power is lost, a load finds the record that was saved last,
or one whose save was begun since and did not succeed. -/
theorem settings_survive (hpath : store.validPath) (hfirst : Holds first initial [])
    (h : Past store first initial last begun volume) :
    ∃ record ∈ last :: begun.map some, LoadsAs store volume (answer record) := by
  obtain ⟨record, older, hholds, hsubset⟩ := h.holds hfirst
  exact ⟨record, hsubset (List.mem_cons_self ..), hholds.loads hpath⟩

end Past

/-! ### The store as the session sees it -/

def settingsFile : Option SettingsRecord → SettingsFile
  | none => .missing
  | some record => .stored record

/-- What the next session finds: the volume as it was left or, if the old record was
stored for good, what a loss of power made of it. -/
def After (older : List (Option SettingsRecord)) (volume found : Volume Name) : Prop :=
  found = volume ∨ older = [] ∧ volume.Recovers found

theorem Finds.after {now : List (Option SettingsRecord)} {found : Volume Name}
    {older later : List (Option SettingsRecord)} (h : Finds store volume now later)
    (hlater : older = [] → later ⊆ now) (hafter : After older volume found) :
    ∃ record ∈ now, LoadsAs store found (answer record) := by
  obtain rfl | ⟨hnone, hrecovers⟩ := hafter
  · exact h.1
  · obtain ⟨record, hrecord, hloads⟩ := h.2 found hrecovers
    exact ⟨record, hlater hnone hrecord, hloads⟩

/-- Every save behaves as one of `saveSettings`, the atomic store the session is
modelled with, under some fault. -/
theorem save_simulates {store : AtomicSettingsStore} (hpath : store.validPath)
    {volume : Volume Name} {old : Option SettingsRecord} {older : List (Option SettingsRecord)}
    (hold : Holds volume old older) {settings : SettingsRecord} (hzero : settings.generation ≠ 0)
    (hrange : settings.generation < 2 ^ 64) (replies : List Reply) {disk : Disk}
    (hdisk : disk.settings = settingsFile old) :
    match (store.save settings).run ⟨⟨replies, {}⟩, volume, []⟩ with
    | .crashed left => ∀ found, After older left found → ∃ progress record,
      LoadsAs store found (answer record) ∧
      saveSettings settings ⟨(), disk, [.crash progress]⟩ =
        .crashed { disk with settings := settingsFile record }
    | .done (.error failure) m => ∀ found, After older m.durable found → ∃ progress record,
      LoadsAs store found (answer record) ∧
      saveSettings settings ⟨(), disk, [.failed progress]⟩ =
        .done (.error ⟨.writeFailed, failure.finalReplaced⟩)
          ⟨(), { disk with settings := settingsFile record }, []⟩
    | .done (.ok ()) m => ∀ found, After [] m.durable found →
      LoadsAs store found (answer (some settings)) ∧
      saveSettings settings ⟨(), disk, []⟩ =
        .done (.ok ()) ⟨(), { disk with settings := settingsFile (some settings) }, []⟩ := by
  have hrun := wp_save_holds store (m := ⟨⟨replies, {}⟩, volume, []⟩) rfl hold hzero hrange
  have hsame : { disk with settings := settingsFile old } = disk := by rw [← hdisk]
  have heither {left found : Volume Name} (h : HoldsEither old older settings left)
      (hafter : After older left found) :
      LoadsAs store found (answer old) ∨ LoadsAs store found (.ok settings) := by
    obtain ⟨record, hrecord, hloads⟩ :=
      (h.finds hpath).after (by rintro rfl; exact List.Subset.refl _) hafter
    rcases List.mem_cons.mp hrecord with rfl | hrecord
    · exact .inl hloads
    · rw [List.mem_singleton.mp hrecord] at hloads
      exact .inr hloads
  unfold wp at hrun
  rcases hresult : (store.save settings).run ⟨⟨replies, {}⟩, volume, []⟩ with
    ⟨failure | ⟨⟩, m⟩ | left <;> rw [hresult] at hrun
  · intro found hafter
    obtain ⟨hleft, hkept⟩ := hrun
    -- A failure that names no replacement is a write that was not begun.
    cases hreplaced : failure.finalReplaced with
    | false =>
      obtain ⟨record, hrecord, hloads⟩ :=
        ((hkept hreplaced).finds hpath).after (by rintro rfl; exact List.Subset.refl _) hafter
      rw [List.mem_singleton.mp hrecord] at hloads
      refine ⟨.untouched, old, hloads, ?_⟩
      rw [hsame]
      simp [saveSettings, hzero, bind, Prog.write, replaceSettings, pure]
    | true =>
      obtain hfound | hfound := heither hleft hafter
      · refine ⟨.partly, old, hfound, ?_⟩
        rw [hsame]
        simp [saveSettings, hzero, bind, Prog.write, replaceSettings, pure]
      · refine ⟨.complete, some settings, hfound, ?_⟩
        simp [saveSettings, hzero, bind, Prog.write, replaceSettings, pure, settingsFile]
  · intro found hafter
    obtain ⟨record, hrecord, hloads⟩ :=
      (Holds.finds hpath hrun).after (fun _ => List.Subset.refl _) hafter
    rw [List.mem_singleton.mp hrecord] at hloads
    refine ⟨hloads, ?_⟩
    simp [saveSettings, hzero, bind, Prog.write, replaceSettings, pure, settingsFile]
  · intro found hafter
    obtain hfound | hfound := heither hrun hafter
    · refine ⟨.untouched, old, hfound, ?_⟩
      rw [hsame]
      simp [saveSettings, hzero, bind, Prog.write, replaceSettings]
    · refine ⟨.complete, some settings, hfound, ?_⟩
      simp [saveSettings, hzero, bind, Prog.write, replaceSettings, settingsFile]

end Lora.AtomicSettings
