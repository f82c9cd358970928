import DrepTalk.Governance.FormState
import DrepTalk.Library.TransitionSystem

/-!
# The context of the selected type

`govActionFormReducer` under every order of actions: edits, switches of the type, drafts that are
restored, requests of the context with increasing ids, and their answers, each at any time after its
request and any number of times.

**Late answers** carry an old id and change nothing (`govActionFormReducer_superseded`). A switch of
the type drops the data but keeps the id, so the answer to a request of the type before is still the
latest until the next request, and a restored draft brings its type and keeps the data
(`not_context_matches`).

**What holds** (`context_matches_iff`). The data is that of the selected type as long as the answer
that is accepted was requested for it and a restored draft is of the type of the data; the first
step that is not so shows the data of another type.
-/

namespace DrepTalk

/-! ### Runs of the form -/

/-- The form, with the types that were selected as its requests were made, by their ids, and as the
data that it has was requested. -/
structure FormWorld where
  form : GovActionFormState
  requestedFor : ℤ → Option GovActionFormType
  dataFor : Option GovActionFormType

namespace FormWorld

def note (w : FormWorld) (form : GovActionFormState) : GovActionFormAction → FormWorld
  | .contextRequested id =>
    ⟨form, Function.update w.requestedFor id (some w.form.type), w.dataFor⟩
  | .contextLoaded id _ _ =>
    ⟨form, w.requestedFor,
      if id = w.form.context.requestId then w.requestedFor id else w.dataFor⟩
  | _ => ⟨form, w.requestedFor, w.dataFor⟩

/-- Requests have increasing ids, and an answer is that of an earlier request. -/
def CanTake (w : FormWorld) : GovActionFormAction → Prop
  | .contextRequested id => ∀ earlier, w.requestedFor earlier ≠ none → earlier < id
  | .contextLoaded id _ _ | .contextFailed id _ => w.requestedFor id ≠ none
  | _ => True

/-- The data, where the selected type needs some and there is some, was requested for that type. -/
def Matches (w : FormWorld) : Prop :=
  needsContext w.form.type = true → w.form.context.data ≠ none → w.dataFor = some w.form.type

/-- The condition on an action: the answer that is accepted was requested for the selected type,
and a draft that is restored is of the type of the data. -/
def keepsMatch (w : FormWorld) : GovActionFormAction → Prop
  | .contextLoaded id _ _ =>
    id = w.form.context.requestId → needsContext w.form.type = true →
      w.requestedFor id = some w.form.type
  | .restoreDraft draft _ _ =>
    needsContext draft.type = true → w.form.context.data ≠ none → w.dataFor = some draft.type
  | _ => True

end FormWorld

section

variable (web : BrowserText)

/-- The runs of the form from its initial state. -/
def formSystem : TransitionSystem FormWorld GovActionFormAction where
  Init w := ∃ displayName, w = ⟨initialGovActionFormState displayName, fun _ => none, none⟩
  Step w a w' := w.CanTake a ∧ w' = w.note (govActionFormReducer web w.form a) a

end

/-! ### What an action does to the type and the data -/

section

variable {web : BrowserText} {state : GovActionFormState}

variable (balance : WalletBalanceState) (patch : MetadataPatch) (siteOrigin : Option String)
  (requestId : ℤ) (statusFor : String → RecipientStatus)

@[simp] theorem type_settleRecipients :
    (settleRecipients state requestId statusFor).type = state.type := by
  unfold settleRecipients
  split <;> rfl

@[simp] theorem context_settleRecipients :
    (settleRecipients state requestId statusFor).context = state.context := by
  unfold settleRecipients
  split <;> rfl

@[simp] theorem type_setBalance : (setBalance state balance).type = state.type := by
  unfold setBalance
  split <;> rfl

@[simp] theorem context_setBalance : (setBalance state balance).context = state.context := by
  unfold setBalance
  split <;> rfl

@[simp] theorem type_setMetadata : (setMetadata web state patch siteOrigin).type = state.type := by
  unfold setMetadata
  repeat' split
  all_goals rfl

@[simp] theorem data_setMetadata :
    (setMetadata web state patch siteOrigin).context.data = state.context.data := by
  unfold setMetadata
  repeat' split
  all_goals exact ContextState.data_cleared _

@[simp] theorem type_linkDraftReference (slug title siteOrigin : String)
    (selectedSlug : Option String) :
    (linkDraftReference web state slug title siteOrigin selectedSlug).type = state.type := by
  unfold linkDraftReference
  dsimp only
  split <;> rfl

@[simp] theorem data_linkDraftReference (slug title siteOrigin : String)
    (selectedSlug : Option String) :
    (linkDraftReference web state slug title siteOrigin selectedSlug).context.data =
      state.context.data := by
  unfold linkDraftReference
  dsimp only
  split
  · rfl
  · exact ContextState.data_cleared _

@[simp] theorem type_unlinkDraftReference (siteOrigin : String) (selectedSlug : Option String) :
    (unlinkDraftReference web state siteOrigin selectedSlug).type = state.type := by
  unfold unlinkDraftReference
  dsimp only
  split <;> rfl

@[simp] theorem data_unlinkDraftReference (siteOrigin : String) (selectedSlug : Option String) :
    (unlinkDraftReference web state siteOrigin selectedSlug).context.data =
      state.context.data := by
  unfold unlinkDraftReference
  dsimp only
  split <;> exact ContextState.data_cleared _

theorem govActionFormReducer_superseded {id : ℤ} (h : id ≠ state.context.requestId)
    (data : ActionContextResponse) (now : ℤ) (code : Option String) :
    govActionFormReducer web state (.contextLoaded id data now) = state ∧
      govActionFormReducer web state (.contextFailed id code) = state := by
  simp only [govActionFormReducer, h, ne_eq, not_false_eq_true, if_true, and_self]

end

namespace FormWorld

variable {web : BrowserText} {w w' : FormWorld} {a : GovActionFormAction}

theorem matches_note_of_same {form : GovActionFormState} (hm : w.Matches)
    (htype : form.type = w.form.type) (hdata : form.context.data = w.form.context.data)
    (hfor : (w.note form a).dataFor = w.dataFor) (hform : (w.note form a).form = form) :
    (w.note form a).Matches := by
  unfold Matches
  rw [hform, hfor, htype, hdata]
  exact hm

theorem matches_of_data_eq_none (h : w.form.context.data = none) : w.Matches :=
  fun _ hdata => absurd h hdata

theorem keepsMatch_iff (hm : w.Matches) :
    w.keepsMatch a ↔ (w.note (govActionFormReducer web w.form a) a).Matches := by
  -- an action that has no part in it meets the condition, and keeps the type and the data
  have same : ∀ {b : GovActionFormAction}, w.keepsMatch b = True →
      (govActionFormReducer web w.form b).type = w.form.type →
      (govActionFormReducer web w.form b).context.data = w.form.context.data →
      (w.note (govActionFormReducer web w.form b) b).dataFor = w.dataFor →
      (w.note (govActionFormReducer web w.form b) b).form = govActionFormReducer web w.form b →
      (w.keepsMatch b ↔ (w.note (govActionFormReducer web w.form b) b).Matches) :=
    fun hk htype hdata hfor hform =>
      ⟨fun _ => matches_note_of_same hm htype hdata hfor hform, fun _ => hk ▸ trivial⟩
  cases a with
  | setType type =>
    by_cases h : type = w.form.type
    · exact same rfl (by simp [govActionFormReducer, h]) (by simp [govActionFormReducer, h]) rfl rfl
    · refine iff_of_true trivial (matches_of_data_eq_none ?_)
      simp [note, govActionFormReducer, h, ContextState.data]
  | contextLoaded id data now =>
    by_cases h : id = w.form.context.requestId
    · -- the answer is accepted, whatever type is selected by now
      simp [keepsMatch, Matches, note, govActionFormReducer, h, ContextState.data]
    · have hsame : govActionFormReducer web w.form (.contextLoaded id data now) = w.form :=
        (govActionFormReducer_superseded h data now none).1
      rw [hsame]
      simpa [keepsMatch, Matches, note, h] using hm
  | contextFailed id code =>
    by_cases h : id = w.form.context.requestId
    · refine iff_of_true trivial (matches_of_data_eq_none ?_)
      simp [note, govActionFormReducer, h, ContextState.data]
    · exact same rfl (by simp [govActionFormReducer, h]) (by simp [govActionFormReducer, h]) rfl rfl
  | restoreDraft draft openDrafts siteOrigin => rfl
  | discardDraft displayName =>
    -- the info action needs no context
    exact iff_of_true trivial nofun
  | contextRequested id | walletConnected rewardAddressHex => exact same rfl rfl rfl rfl rfl
  | setMetadata patch siteOrigin =>
    exact same rfl (type_setMetadata _ _) (data_setMetadata _ _) rfl rfl
  | setPanel panel => exact same rfl rfl (ContextState.data_cleared _) rfl rfl
  | linkDraft slug title siteOrigin selectedSlug =>
    exact same rfl (type_linkDraftReference _ _ _ _) (data_linkDraftReference _ _ _ _) rfl rfl
  | unlinkDraft siteOrigin selectedSlug =>
    exact same rfl (type_unlinkDraftReference _ _) (data_unlinkDraftReference _ _) rfl rfl
  | walletConnecting =>
    by_cases h : w.form.wallet = .connecting <;>
      exact same rfl (by simp [govActionFormReducer, h]) (by simp [govActionFormReducer, h]) rfl rfl
  | walletDisconnected => exact same rfl rfl rfl rfl rfl
  | recipientsCheckRequested requestId addresses => exact same rfl rfl rfl rfl rfl
  | walletBalanceLoading | walletBalance lovelace rewardRegistered | walletBalanceFailed message =>
    exact same rfl (type_setBalance _) (congrArg _ (context_setBalance _)) rfl rfl
  | recipientsChecked requestId registered | recipientsCheckFailed requestId =>
    exact same rfl (type_settleRecipients _ _) (congrArg _ (context_settleRecipients _ _)) rfl rfl

end FormWorld

/-! ### Runs on fixed actions -/

section

def emptyContext : ActionContextResponse := ⟨none, none, none, none⟩

def noUrls : BrowserText := ⟨fun _ => none, id⟩

/-- The form after actions, from the start. -/
def formWorldAfter (web : BrowserText) (actions : List GovActionFormAction) : FormWorld :=
  actions.foldl (fun w a => w.note (govActionFormReducer web w.form a) a)
    ⟨initialGovActionFormState "", fun _ => none, none⟩

/-- Actions that can be taken one after the other, each under a condition. -/
def CanTakeAll (web : BrowserText) (ok : FormWorld → GovActionFormAction → Prop) :
    FormWorld → List GovActionFormAction → Prop
  | _, [] => True
  | w, a :: rest =>
    ok w a ∧ w.CanTake a ∧ CanTakeAll web ok (w.note (govActionFormReducer web w.form a) a) rest

variable {ok : FormWorld → GovActionFormAction → Prop} {actions : List GovActionFormAction}

theorem reachable_foldl {web : BrowserText} {w : FormWorld}
    (hw : ((formSystem web).restrict ok).Reachable w) (h : CanTakeAll web ok w actions) :
    ((formSystem web).restrict ok).Reachable
      (actions.foldl (fun w a => w.note (govActionFormReducer web w.form a) a) w) := by
  induction actions generalizing w with
  | nil => exact hw
  | cons a rest ih =>
    obtain ⟨hok, hcan, hrest⟩ := h
    exact ih (hw.step ⟨hok, hcan, rfl⟩) hrest

theorem reachable_formWorldAfter {web : BrowserText}
    (h : CanTakeAll web ok ⟨initialGovActionFormState "", fun _ => none, none⟩ actions) :
    ((formSystem web).restrict ok).Reachable (formWorldAfter web actions) :=
  reachable_foldl (.init ⟨"", rfl⟩) h

/-- The context of a type is requested and arrives. -/
def answeredInTime : List GovActionFormAction :=
  [.setType .NoConfidence, .contextRequested 1, .contextLoaded 1 emptyContext 0]

/-- The answer to the request of one type comes right after the switch to another. -/
def answeredLate : List GovActionFormAction :=
  [.setType .NoConfidence, .contextRequested 1, .setType .HardForkInitiation,
    .contextLoaded 1 emptyContext 0]

end

/-- **The context of the type**: in a run whose actions meet the condition, the data is that of the
selected type, and any further action keeps it so exactly where it meets the condition. -/
theorem context_matches_iff {web : BrowserText} {w : FormWorld}
    (hw : ((formSystem web).restrict FormWorld.keepsMatch).Reachable w) :
    w.Matches ∧ ∀ a w', (formSystem web).Step w a w' → (w.keepsMatch a ↔ w'.Matches) := by
  have hm : w.Matches := by
    refine hw.invariant ?_ ?_
    · rintro _ ⟨displayName, rfl⟩
      exact FormWorld.matches_of_data_eq_none rfl
    · rintro w a w' hm ⟨hok, -, rfl⟩
      exact (FormWorld.keepsMatch_iff hm).mp hok
  refine ⟨hm, ?_⟩
  rintro a w' ⟨-, rfl⟩
  exact FormWorld.keepsMatch_iff hm

theorem context_matches_answered :
    (formWorldAfter noUrls answeredInTime).form.context.data = some emptyContext ∧
      (formWorldAfter noUrls answeredInTime).Matches := by
  refine ⟨rfl, (context_matches_iff (reachable_formWorldAfter ?_)).1⟩
  refine ⟨trivial, trivial, trivial, nofun, fun _ _ => rfl, ?_, trivial⟩
  exact Option.some_ne_none _

/-- The context of a motion of no confidence on the panel of a hard fork. -/
theorem not_context_matches :
    (formSystem noUrls).Reachable (formWorldAfter noUrls answeredLate) ∧
      ¬(formWorldAfter noUrls answeredLate).Matches := by
  constructor
  · have h : ((formSystem noUrls).restrict fun _ _ => True).Reachable
        (formWorldAfter noUrls answeredLate) :=
      reachable_formWorldAfter ⟨trivial, trivial, trivial, nofun, trivial,
        trivial, trivial, Option.some_ne_none _, trivial⟩
    exact h.of_restrict
  · intro h
    have hfor : some GovActionFormType.NoConfidence = some .HardForkInitiation :=
      h rfl (Option.some_ne_none _)
    cases hfor

end DrepTalk
